import DocStore.Proofs.Expr.Predicate

/-!
# Reading what stands in parentheses

Binary operators and predicates are written in parentheses.  Between the parentheses stands an
operand and what makes a larger expression of it (`Extends`): an operator and its right operand, or
a predicate.
-/

namespace DocStore

open DocStore.Parser

variable {s s' : Ahead} {l : Lexeme} {ls more tail : List Lexeme} {names : List String}
  {others : List Expr} {negated : Bool}
  {e first left right target pattern low high value : Expr} {w lower : String}

/-- The lexemes `tail` after the operand `first` make `e` of it; `others` are the nodes in them. -/
def Extends (first : Expr) (tail : List Lexeme) (others : List Expr) (e : Expr) : Prop :=
  ∀ depth start bound ls names, tail.length < depth → bound ≠ 0 → Closes ls →
    NumberedFrom names others →
    Parses (operators (expression depth) 0 start bound first) ⟨tail ++ ls, names⟩ e
      ⟨ls, namesAfter names others⟩

/-- An operand and its extension in parentheses. -/
theorem reads_group
    (hlexemes : e.lexemes = .leftParen :: (first.lexemes ++ (tail ++ [.rightParen])))
    (hnodes : e.nodes = e :: (first.nodes ++ others)) (hname : e.placeholderName? = none)
    (hfirst : Reads first) (hpath : ∀ ls names, Ahead.EndsPath ⟨tail ++ ls, names⟩)
    (hextends : Extends first tail others e) : Reads e := by
  intro depth ls names hdepth _ hnumbered
  rw [hlexemes] at hdepth ⊢
  rw [hnodes] at hnumbered ⊢
  rw [namesAfter_cons_of_none hname, namesAfter_append]
  obtain ⟨hfirstNumbered, hothers⟩ := numberedFrom_append.mp (numberedFrom_tail hname hnumbered)
  simp only [List.length_cons, List.length_append, List.length_nil] at hdepth
  -- What stands inside is read with one depth less; the opening parenthesis has paid for it.
  obtain ⟨depth, rfl⟩ := Nat.exists_eq_succ_of_ne_zero (by omega : depth ≠ 0)
  have hclose : Closes (.rightParen :: ls) := .inr (.inl rfl)
  have hbound : (tail ++ Lexeme.rightParen :: ls).length ≠ 0 := by simp
  have hsub : Parses (expression (depth + 1) 0)
      ⟨first.lexemes ++ (tail ++ .rightParen :: ls), names⟩ e
      ⟨.rightParen :: ls, namesAfter (namesAfter names first.nodes) others⟩ :=
    Parses.expression (hfirst depth _ names (by omega) (hpath _ _) hfirstNumbered)
      fun start => hextends depth start _ _ _ (by omega) hbound hclose hothers
  rw [List.cons_append, List.append_assoc, List.append_assoc]
  exact Parses.operand_paren hsub

/-! ## Binary operators -/

theorem extends_binary {op : BinaryOp} (hright : Reads right) :
    Extends left (op.lexeme :: right.lexemes) right.nodes (.binary op left right) := by
  intro depth start bound ls names hdepth hbound hcloses hnumbered
  rw [List.length_cons] at hdepth
  exact Parses.operators_binary (Nat.zero_le _) (hright.closed (by omega) hcloses hnumbered)
    hcloses.stops hbound

theorem reads_binary {op : BinaryOp} (hleft : Reads left) (hright : Reads right) :
    Reads (.binary op left right) := by
  refine reads_group (by simp [Expr.lexemes]) rfl rfl hleft (fun ls names => ?_)
    (extends_binary hright)
  cases op <;> rfl

/-! ## Predicates -/

/-- A predicate about `first` extends it, if the parser of predicates reads it. -/
theorem extends_predicate (hat : ∀ ls names, atPredicate (Ahead.cursor ⟨tail ++ ls, names⟩) = true)
    (hpredicate : ∀ depth start ls names, tail.length < depth → Closes ls →
      NumberedFrom names others →
      Parses (predicate (expression depth) first start) ⟨tail ++ ls, names⟩ e
        ⟨ls, namesAfter names others⟩) : Extends first tail others e :=
  fun depth start _ ls names hdepth hbound hcloses hnumbered =>
    Parses.operators_predicate (hat ls names) (Nat.zero_le _)
      (hpredicate depth start ls names hdepth hcloses hnumbered) hcloses.stops hbound

/-- A predicate whose word may be negated, if the parser of predicates reads it. -/
theorem reads_predicate (hw : Keyword w lower) (hlower : lower ∈ predicateWords)
    (hlexemes : e.lexemes = .leftParen :: (first.lexemes
      ++ (Expr.negationLexemes negated ++ .word w :: (more ++ [.rightParen]))))
    (hnodes : e.nodes = e :: (first.nodes ++ others)) (hname : e.placeholderName? = none)
    (hfirst : Reads first)
    (hpredicate : ∀ depth start ls names, more.length < depth → Closes ls →
      NumberedFrom names others →
      Parses (predicate (expression depth) first start)
        ⟨Expr.negationLexemes negated ++ .word w :: (more ++ ls), names⟩ e
        ⟨ls, namesAfter names others⟩) : Reads e := by
  -- The tail of the group, with what follows it, as the parser of predicates finds it.
  have hassoc : ∀ ls, Expr.negationLexemes negated ++ .word w :: more ++ ls
      = Expr.negationLexemes negated ++ .word w :: (more ++ ls) := by simp
  have hpath : ∀ ls names,
      Ahead.EndsPath ⟨Expr.negationLexemes negated ++ .word w :: more ++ ls, names⟩ := by
    intro ls names
    rw [hassoc]
    exact (negates_negationLexemes negated).endsPath hw
  refine reads_group (by rw [hlexemes, hassoc]) hnodes hname hfirst hpath
    (extends_predicate (fun ls names => ?_) fun depth start ls names hdepth hcloses hnumbered => ?_)
  · rw [hassoc]
    exact atPredicate_word (negates_negationLexemes negated) hw hlower
  · rw [List.length_append, List.length_cons] at hdepth
    rw [hassoc]
    exact hpredicate depth start ls names (by omega) hcloses hnumbered

/-! ### The predicates -/

theorem reads_regexp (htarget : Reads target) (hpattern : Reads pattern) :
    Reads (.regexp target pattern negated) := by
  have hword : Keyword "REGEXP" "regexp" := .of_letters rfl (by decide)
  refine reads_predicate hword (by decide) rfl rfl rfl htarget
    fun depth start ls names hdepth hcloses hnumbered => ?_
  exact Parses.predicate_regexp (negates_negationLexemes negated) hword
    (hpattern.closed hdepth hcloses hnumbered)

theorem reads_between (htarget : Reads target) (hlow : Reads low) (hhigh : Reads high) :
    Reads (.between target low high negated) := by
  have hlexemes : Expr.lexemes (.between target low high negated) = .leftParen :: (target.lexemes
      ++ (Expr.negationLexemes negated ++ .word "BETWEEN" ::
        ((low.lexemes ++ .word "AND" :: high.lexemes) ++ [.rightParen]))) := by simp [Expr.lexemes]
  have hnodes : Expr.nodes (.between target low high negated)
      = .between target low high negated :: (target.nodes ++ (low.nodes ++ high.nodes)) := by
    simp [Expr.nodes]
  have hword : Keyword "BETWEEN" "between" := .of_letters rfl (by decide)
  refine reads_predicate hword (by decide) hlexemes hnodes rfl htarget
    fun depth start ls names hdepth hcloses hnumbered => ?_
  obtain ⟨hlowNumbered, hhighNumbered⟩ := numberedFrom_append.mp hnumbered
  rw [List.length_append, List.length_cons] at hdepth
  rw [List.append_assoc, List.cons_append, namesAfter_append]
  exact Parses.predicate_between (negates_negationLexemes negated) hword
    (hlow.sub (by omega) keyword_and.endsPath hlowNumbered (stops_and keyword_and)) keyword_and
    (hhigh.closed (by omega) hcloses hhighNumbered)

theorem reads_overlaps (hleft : Reads left) (hright : Reads right)
    (hleftLiterals : left.holdsLiterals = true) (hrightLiterals : right.holdsLiterals = true) :
    Reads (.overlaps left right negated) := by
  have hword : Keyword "OVERLAPS" "overlaps" := .of_letters rfl (by decide)
  refine reads_predicate hword (by decide) rfl rfl rfl hleft
    fun depth start ls names hdepth hcloses hnumbered => ?_
  exact Parses.predicate_overlaps (negates_negationLexemes negated) hword hleftLiterals
    hrightLiterals (hright.closed hdepth hcloses hnumbered)

theorem reads_like {escape : Option Expr} (htarget : Reads target) (hpattern : Reads pattern)
    (hescape : ∀ e ∈ escape, Reads e) : Reads (.like target pattern escape negated) := by
  have hlexemes : Expr.lexemes (.like target pattern escape negated) = .leftParen :: (target.lexemes
      ++ (Expr.negationLexemes negated ++ .word "LIKE" ::
        ((pattern.lexemes ++ Expr.escapeLexemes escape) ++ [.rightParen]))) := by
    simp [Expr.lexemes]
  have hnodes : Expr.nodes (.like target pattern escape negated)
      = .like target pattern escape negated
        :: (target.nodes ++ (pattern.nodes ++ Expr.nodesOfOption escape)) := by
    simp [Expr.nodes]
  have hword : Keyword "LIKE" "like" := .of_letters rfl (by decide)
  refine reads_predicate hword (by decide) hlexemes hnodes rfl htarget
    fun depth start ls names hdepth hcloses hnumbered => ?_
  obtain ⟨hpatternNumbered, hescapeNumbered⟩ := numberedFrom_append.mp hnumbered
  rw [List.length_append] at hdepth
  rw [List.append_assoc, namesAfter_append]
  cases escape with
  | none =>
      exact Parses.predicate_like (negates_negationLexemes negated) hword
        (hpattern.closed (by omega) hcloses hpatternNumbered) (hcloses.isWordAt "escape")
  | some escape =>
      rw [Expr.escapeLexemes, List.length_cons] at hdepth
      exact Parses.predicate_likeEscape (negates_negationLexemes negated) hword
        (hpattern.sub (by omega) keyword_escape.endsPath hpatternNumbered
          (stops_escape keyword_escape))
        keyword_escape ((hescape escape rfl).closed (by omega) hcloses hescapeNumbered)

/-- Nothing that may follow an operand negates it. -/
theorem reads_isValue (htarget : Reads target) (hvalue : Reads value)
    (hprintable : value.Printable) : Reads (.isValue target value negated) := by
  have hlexemes : Expr.lexemes (.isValue target value negated) = .leftParen :: (target.lexemes
      ++ ((.word "IS" :: (Expr.negationLexemes negated ++ value.lexemes)) ++ [.rightParen])) := by
    simp [Expr.lexemes]
  have hword : Keyword "IS" "is" := .of_letters rfl (by decide)
  refine reads_group hlexemes rfl rfl htarget (fun _ _ => hword.endsPath)
    (extends_predicate (fun _ _ => atPredicate_is hword)
      fun depth start ls names hdepth hcloses hnumbered => ?_)
  obtain ⟨l, more, hl, hopens⟩ := hprintable.opens
  rw [List.length_cons, List.length_append] at hdepth
  have hread : Parses (expression depth operandPower) ⟨value.lexemes ++ ls, names⟩ value
      ⟨ls, namesAfter names value.nodes⟩ := hvalue.closed (by omega) hcloses hnumbered
  rw [hl, List.cons_append] at hread
  rw [hl, List.cons_append, List.append_assoc, List.cons_append]
  exact Parses.predicate_is (negates_negationLexemes negated) hword hopens.notWord hread

/-! ### Membership -/

section Membership

variable {list : List Expr} {form : ListForm}

/-- The candidates decide how `IN` is read. -/
theorem reads_isIn (htarget : Reads target)
    (hlexemes : Expr.lexemes (.isIn target list negated form) = .leftParen :: (target.lexemes
      ++ (Expr.negationLexemes negated ++ .word "IN" :: (more ++ [.rightParen]))))
    (hlist : ∀ depth ls names, more.length < depth → Closes ls →
      NumberedFrom names (Expr.nodesOfList list) →
      Parses (inList (expression depth) target negated) ⟨more ++ ls, names⟩
        (.isIn target list negated form) ⟨ls, namesAfter names (Expr.nodesOfList list)⟩) :
    Reads (.isIn target list negated form) := by
  have hword : Keyword "IN" "in" := .of_letters rfl (by decide)
  refine reads_predicate hword (by decide) hlexemes rfl rfl htarget
    fun depth start ls names hdepth hcloses hnumbered => ?_
  exact Parses.predicate_in (negates_negationLexemes negated) hword
    (hlist depth ls names hdepth hcloses hnumbered)

theorem reads_isIn_paren (htarget : Reads target) (hlist : ∀ e ∈ list, e.Printable ∧ Reads e) :
    Reads (.isIn target list negated .paren) := by
  have hlexemes : Expr.lexemes (.isIn target list negated .paren) = .leftParen :: (target.lexemes
      ++ (Expr.negationLexemes negated ++ .word "IN" ::
        ((.leftParen :: (Lexeme.separated (Expr.listLexemes list) ++ [.rightParen]))
          ++ [.rightParen]))) := by simp [Expr.lexemes]
  refine reads_isIn htarget hlexemes fun depth ls names hdepth hcloses hnumbered => ?_
  simp only [List.length_cons, List.length_append, List.length_nil] at hdepth
  rw [List.cons_append, List.append_assoc]
  exact Parses.inList_paren (Parses.listUntil hlist (.inl rfl) (by omega) hnumbered)

theorem reads_isIn_bracket (htarget : Reads target) (hlist : ∀ e ∈ list, e.Printable ∧ Reads e)
    (hliteral : Expr.allLiteral list = true) : Reads (.isIn target list negated .bracket) := by
  have hlexemes : Expr.lexemes (.isIn target list negated .bracket) = .leftParen :: (target.lexemes
      ++ (Expr.negationLexemes negated ++ .word "IN" ::
        ((.leftBracket :: (Lexeme.separated (Expr.listLexemes list) ++ [.rightBracket]))
          ++ [.rightParen]))) := by simp [Expr.lexemes]
  refine reads_isIn htarget hlexemes fun depth ls names hdepth hcloses hnumbered => ?_
  simp only [List.length_cons, List.length_append, List.length_nil] at hdepth
  rw [List.cons_append, List.append_assoc]
  exact Parses.inList_bracket (Parses.listUntil hlist (.inr rfl) (by omega) hnumbered) hliteral

/-- What starts with neither a parenthesis nor a bracket is a container. -/
theorem reads_isIn_container {operand : Expr} (htarget : Reads target) (hoperand : Reads operand)
    (hprintable : operand.Printable) (hgrouped : operand.isGrouped = false) :
    Reads (.isIn target [operand] negated .container) := by
  have hlexemes : Expr.lexemes (.isIn target [operand] negated .container) = .leftParen ::
      (target.lexemes ++ (Expr.negationLexemes negated ++ .word "IN" ::
        (operand.lexemes ++ [.rightParen]))) := by
    simp [Expr.lexemes, Expr.listLexemes, Lexeme.separated]
  refine reads_isIn htarget hlexemes fun depth ls names hdepth hcloses hnumbered => ?_
  have hnodes : Expr.nodesOfList [operand] = operand.nodes := List.append_nil _
  rw [hnodes] at hnumbered ⊢
  have hread : Parses (expression depth operandPower) ⟨operand.lexemes ++ ls, names⟩ operand
      ⟨ls, namesAfter names operand.nodes⟩ := hoperand.closed hdepth hcloses hnumbered
  obtain ⟨l, more, hl, hopens⟩ := hprintable.opens
  obtain ⟨hparen, hbracket⟩ := hopens.grouped hgrouped
  rw [hl] at hread ⊢
  rw [inList]
  refine Parses.peek.bind ?_
  have hkind : Ahead.kindAt ⟨l :: more ++ ls, names⟩ 0 = l.kind := rfl
  rw [hkind]
  split
  · next h => exact absurd h hparen
  · next h => exact absurd h hbracket
  · exact hread.bind (Parses.pure _)

end Membership

end DocStore
