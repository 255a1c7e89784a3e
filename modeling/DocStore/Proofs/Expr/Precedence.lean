import DocStore.Proofs.Expr.Reading

/-!
# Operands, operators and lists

What `expression` does with canonical text: there every operand is one lexeme or one bracketed
group, so an expression is an operand, and the operators after it either belong to a group that is
still open or bind too loosely to be taken (`Stops`).

`Reads e` says that the parser of operands reads the lexemes of `e` as `e`.
-/

namespace DocStore

open DocStore.Parser

variable {s s' s'' : Ahead} {l : Lexeme} {ls : List Lexeme} {names known : List String}
  {inner : Sub} {least start bound depth : Nat} {e left right : Expr}

theorem Parser.atPredicate_eq (c : Cursor) : atPredicate c = atPredicate c.ahead.cursor := by
  have hword : c.isWordAt = c.ahead.cursor.isWordAt :=
    funext fun n => funext fun word => c.isWordAt_eq n word
  simp only [atPredicate, hword]

theorem Parser.binaryOp?_eq {token : Token} (hkind : token.kind = l.kind)
    (htext : token.text = l.text) : binaryOp? token = binaryOp? l.token := by
  obtain ⟨kind, start, stop, text⟩ := token
  subst hkind htext
  rfl

/-! ## Where operators stop -/

/-- What is ahead binds too loosely to go on with an expression of this power. -/
structure Stops (least : Nat) (s : Ahead) : Prop where
  predicate : atPredicate s.cursor = true → predicatePower < least
  operator : ∀ op, s.cursor.rest.head?.bind binaryOp? = some op → leftPower op < least

/-- The end of a list or a group, or of the source. -/
def Closes : List Lexeme → Prop
  | [] => True
  | l :: _ => l.kind = .comma ∨ l.kind = .rightParen ∨ l.kind = .rightBracket ∨ l.kind = .rightBrace

theorem Closes.endsPath (h : Closes ls) : Ahead.EndsPath ⟨ls, names⟩ := by
  cases ls with
  | nil => rfl
  | cons l more =>
      show l.kind.startsStep = false
      rcases h with h | h | h | h <;> rw [h] <;> rfl

/-- No word closes anything. -/
theorem Closes.isWordAt (h : Closes ls) (word : String) :
    Ahead.isWordAt ⟨ls, names⟩ 0 word = false := by
  cases ls with
  | nil => rfl
  | cons l more =>
      show l.token.isWord word = false
      rcases h with h | h | h | h <;> simp [Token.isWord, Lexeme.token, h]

theorem Closes.stops (h : Closes ls) : Stops least ⟨ls, names⟩ := by
  have hword : ∀ word, Cursor.isWordAt (Ahead.cursor ⟨ls, names⟩) 0 word = false := h.isWordAt
  refine ⟨fun hat => ?_, fun op hop => ?_⟩
  · simp [atPredicate, hword] at hat
  · cases ls with
    | nil => cases hop
    | cons l more =>
        have hop : binaryOp? l.token = some op := hop
        rcases h with h | h | h | h <;> simp [binaryOp?, Lexeme.token, h] at hop

/-- Nothing binds as tightly as a sign. -/
theorem stops_signPower (s : Ahead) : Stops signPower s :=
  ⟨fun _ => by decide, fun op _ => by cases op <;> decide⟩

theorem keyword_and : Keyword "AND" "and" := .of_letters rfl (by decide)

theorem keyword_escape : Keyword "ESCAPE" "escape" := .of_letters rfl (by decide)

theorem binaryOp?_of_keyword (h : l.kind = .keyword) :
    binaryOp? l.token = if l.token.isWord "or" = true then some .or
      else if l.token.isWord "and" = true then some .and
      else if l.token.isWord "div" = true then some .div else none := by
  have hkind : l.token.kind = .keyword := h
  rw [binaryOp?, hkind]

theorem stops_and {w : String} (hw : Keyword w "and") :
    Stops operandPower ⟨.word w :: ls, names⟩ := by
  have hand : binaryOp? (Lexeme.word w).token = some .and := by
    simp [binaryOp?_of_keyword hw.kind, hw.isWord]
  refine ⟨fun _ => by decide, fun op hop => ?_⟩
  obtain rfl : BinaryOp.and = op := Option.some.inj (hand.symm.trans hop)
  decide

theorem stops_escape {w : String} (hw : Keyword w "escape") :
    Stops operandPower ⟨.word w :: ls, names⟩ := by
  have hescape : binaryOp? (Lexeme.word w).token = none := by
    simp [binaryOp?_of_keyword hw.kind, hw.isWord]
  refine ⟨fun _ => by decide, fun op hop => ?_⟩
  cases hescape.symm.trans hop

namespace Parses

theorem operators_stop (h : Stops least s) :
    Parses (operators inner least start bound left) s left s := by
  cases bound with
  | zero => exact pure _
  | succ bound =>
      rw [operators]
      refine get_bind fun c hc => ?_
      rw [atPredicate_eq, hc]
      split
      · next hat =>
          rw [if_pos (h.predicate hat)]
          exact pure _
      · obtain ⟨ls, names⟩ := s
        cases ls with
        | nil => exact peek?_bind_nil (pure _)
        | cons l more =>
            refine peek?_bind fun token hkind htext => ?_
            rw [Option.bind_some, binaryOp?_eq hkind htext]
            split
            · exact pure _
            · next op hop =>
                rw [if_pos (h.operator op hop)]
                exact pure _

/-- A binary operator that binds tightly enough, however it is spelled, and its right operand. -/
theorem operators_step {op : BinaryOp} (hop : binaryOp? l.token = some op)
    (hat : atPredicate (Ahead.cursor ⟨l :: ls, names⟩) = false) (hpower : least ≤ leftPower op)
    (hright : Parses (inner (rightPower op)) ⟨ls, names⟩ right s')
    (hrest : Parses (operators inner least start bound (.binary op left right)) s' e s'') :
    Parses (operators inner least start (bound + 1) left) ⟨l :: ls, names⟩ e s'' := by
  rw [operators]
  refine get_bind fun c hc => ?_
  rw [atPredicate_eq, hc, hat, if_neg Bool.false_ne_true]
  refine peek?_bind fun token hkind htext => ?_
  rw [Option.bind_some, binaryOp?_eq hkind htext, hop]
  simp only
  rw [if_neg (Nat.not_lt.mpr hpower)]
  exact advance.bind (hright.bind hrest)

/-- The last binary operator. -/
theorem operators_operator {op : BinaryOp} (hop : binaryOp? l.token = some op)
    (hat : atPredicate (Ahead.cursor ⟨l :: ls, names⟩) = false) (hpower : least ≤ leftPower op)
    (hright : Parses (inner (rightPower op)) ⟨ls, names⟩ right s') (hstop : Stops least s')
    (hbound : bound ≠ 0) :
    Parses (operators inner least start bound left) ⟨l :: ls, names⟩ (.binary op left right) s' := by
  obtain ⟨bound, rfl⟩ := Nat.exists_eq_succ_of_ne_zero hbound
  exact operators_step hop hat hpower hright (operators_stop hstop)

theorem operators_binary {op : BinaryOp} (hpower : least ≤ leftPower op)
    (hright : Parses (inner (rightPower op)) ⟨ls, names⟩ right s') (hstop : Stops least s')
    (hbound : bound ≠ 0) :
    Parses (operators inner least start bound left) ⟨op.lexeme :: ls, names⟩
      (.binary op left right) s' :=
  operators_operator (by cases op <;> rfl) (by cases op <;> rfl) hpower hright hstop hbound

theorem operators_predicate_step (hat : atPredicate s.cursor = true)
    (hpower : least ≤ predicatePower)
    (hpredicate : Parses (Parser.predicate inner left start) s right s')
    (hrest : Parses (operators inner least start bound right) s' e s'') :
    Parses (operators inner least start (bound + 1) left) s e s'' := by
  rw [operators]
  refine get_bind fun c hc => ?_
  rw [atPredicate_eq, hc, if_pos hat, if_neg (Nat.not_lt.mpr hpower)]
  exact hpredicate.bind hrest

theorem operators_predicate (hat : atPredicate s.cursor = true) (hpower : least ≤ predicatePower)
    (hpredicate : Parses (Parser.predicate inner left start) s e s') (hstop : Stops least s')
    (hbound : bound ≠ 0) : Parses (operators inner least start bound left) s e s' := by
  obtain ⟨bound, rfl⟩ := Nat.exists_eq_succ_of_ne_zero hbound
  exact operators_predicate_step hat hpower hpredicate (operators_stop hstop)

theorem expression (hleft : Parses (operand (Parser.expression depth)) s left s')
    (hrest : ∀ start,
      Parses (operators (Parser.expression depth) least start s'.lexemes.length left) s' e s'') :
    Parses (Parser.expression (depth + 1) least) s e s'' := by
  rw [Parser.expression]
  exact position_bind fun start => hleft.bind (remaining.bind (hrest start))

/-- A filter is an expression with nothing after it. -/
theorem filter (h : Parses (Parser.expression (ls.length + 1) 0) ⟨ls, names⟩ e ⟨[], known⟩) :
    Parses Parser.filter ⟨ls, names⟩ e ⟨[], known⟩ :=
  (remaining.bind h).bind (expectEnd.bind (pure e))

end Parses

/-! ## Operands -/

/-- The parser of operands reads the lexemes of `e` as `e`, whatever follows them but a step of a
path. -/
def Reads (e : Expr) : Prop :=
  ∀ (depth : Nat) (ls : List Lexeme) (names : List String), e.lexemes.length ≤ depth →
    Ahead.EndsPath ⟨ls, names⟩ → NumberedFrom names e.nodes →
    Parses (operand (expression depth)) ⟨e.lexemes ++ ls, names⟩ e ⟨ls, namesAfter names e.nodes⟩

/-- An operand is an expression of any power at which what follows it stops. -/
theorem Reads.sub (h : Reads e) (hdepth : e.lexemes.length < depth)
    (hpath : Ahead.EndsPath ⟨ls, names⟩) (hnumbered : NumberedFrom names e.nodes)
    (hstop : Stops least ⟨ls, namesAfter names e.nodes⟩) :
    Parses (expression depth least) ⟨e.lexemes ++ ls, names⟩ e ⟨ls, namesAfter names e.nodes⟩ := by
  obtain ⟨depth, rfl⟩ := Nat.exists_eq_succ_of_ne_zero (Nat.ne_zero_of_lt hdepth)
  exact Parses.expression (h depth ls names (Nat.le_of_lt_succ hdepth) hpath hnumbered)
    fun _ => Parses.operators_stop hstop

theorem Reads.closed (h : Reads e) (hdepth : e.lexemes.length < depth) (hcloses : Closes ls)
    (hnumbered : NumberedFrom names e.nodes) :
    Parses (expression depth least) ⟨e.lexemes ++ ls, names⟩ e ⟨ls, namesAfter names e.nodes⟩ :=
  h.sub hdepth hcloses.endsPath hnumbered hcloses.stops

/-! ## Lists -/

theorem Lexeme.separated_cons (first : List Lexeme) (more : List (List Lexeme)) :
    separated (first :: more) = first ++ more.flatMap (comma :: ·) := by
  induction more generalizing first with
  | nil => simp [separated]
  | cons second others ih => rw [separated, ih, List.flatMap_cons, List.cons_append]; simp

section Lists

variable {α ι : Type} {element : Parser α} {result : ι → α} {lexemes : ι → List Lexeme}
  {nodes : ι → List Expr}

/-- The element that a list has for an item, whatever closes the item. -/
def ReadsItem (element : Parser α) (result : ι → α) (lexemes : ι → List Lexeme)
    (nodes : ι → List Expr) (item : ι) : Prop :=
  ∀ ls names, Closes ls → NumberedFrom names (nodes item) →
    Parses element ⟨lexemes item ++ ls, names⟩ (result item) ⟨ls, namesAfter names (nodes item)⟩

theorem closes_further {more : List ι} (hcloses : Closes ls) :
    Closes (more.flatMap (fun item => Lexeme.comma :: lexemes item) ++ ls) := by
  cases more with
  | nil => exact hcloses
  | cons item others => exact .inl rfl

/-- Every further element comes after a comma. -/
theorem Parses.further {more : List ι}
    (hmore : ∀ item ∈ more, ReadsItem element result lexemes nodes item)
    (hcloses : Closes ls) (hcomma : Ahead.kindAt ⟨ls, []⟩ 0 ≠ .comma)
    (hnumbered : NumberedFrom names (more.flatMap nodes)) (hbound : more.length ≤ bound) :
    Parses (Parser.commaSeparated.further element bound)
      ⟨more.flatMap (fun item => Lexeme.comma :: lexemes item) ++ ls, names⟩ (more.map result)
      ⟨ls, namesAfter names (more.flatMap nodes)⟩ := by
  induction more generalizing names bound with
  | nil =>
      cases bound with
      | zero => exact pure _
      | succ bound => exact bind_false (accept_false hcomma) (pure _)
  | cons item others ih =>
      cases bound with
      | zero => cases hbound
      | succ bound =>
          -- What follows this item closes it: the next comma, or what closes the list.
          rw [List.flatMap_cons, numberedFrom_append] at hnumbered
          have hitem := hmore item List.mem_cons_self
            (others.flatMap (fun item => Lexeme.comma :: lexemes item) ++ ls) names
            (closes_further hcloses) hnumbered.1
          have hothers := ih (fun x hx => hmore x (List.mem_cons_of_mem _ hx)) hnumbered.2
            (Nat.le_of_succ_le_succ hbound)
          rw [List.flatMap_cons, List.flatMap_cons, namesAfter_append, List.append_assoc,
            List.cons_append]
          exact bind_true (accept rfl) (hitem.bind (hothers.bind (pure _)))

/-- Elements with commas between them, up to what closes the list. -/
theorem Parses.commaSeparated {items : List ι} (hne : items ≠ [])
    (hitems : ∀ item ∈ items, ReadsItem element result lexemes nodes item)
    (hcloses : Closes ls) (hcomma : Ahead.kindAt ⟨ls, []⟩ 0 ≠ .comma)
    (hnumbered : NumberedFrom names (items.flatMap nodes)) :
    Parses (Parser.commaSeparated element)
      ⟨Lexeme.separated (items.map lexemes) ++ ls, names⟩ (items.map result)
      ⟨ls, namesAfter names (items.flatMap nodes)⟩ := by
  cases items with
  | nil => exact absurd rfl hne
  | cons first more =>
      have htail : (more.map lexemes).flatMap (Lexeme.comma :: ·)
          = more.flatMap fun item => Lexeme.comma :: lexemes item := List.flatMap_map ..
      have hbound : more.length
          ≤ (more.flatMap (fun item => Lexeme.comma :: lexemes item) ++ ls).length := by
        have htokens := Parses.length_le_flatMap
          (f := fun item => Lexeme.comma :: lexemes item) (fun _ => List.cons_ne_nil _ _) more
        rw [List.length_append]
        omega
      rw [List.flatMap_cons, numberedFrom_append] at hnumbered
      rw [Parser.commaSeparated, List.map_cons, Lexeme.separated_cons, htail, List.append_assoc,
        List.flatMap_cons, namesAfter_append]
      refine (hitems first List.mem_cons_self _ names (closes_further hcloses) hnumbered.1).bind ?_
      refine remaining.bind ?_
      have hmore := further (fun x hx => hitems x (List.mem_cons_of_mem _ hx)) hcloses hcomma
        hnumbered.2 hbound
      exact hmore.bind (pure _)

end Lists

end DocStore
