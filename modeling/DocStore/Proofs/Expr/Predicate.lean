import DocStore.Proofs.Expr.Operand

/-!
# Reading predicates

A predicate starts with its word, or with the word that negates it, and its operands are read with
the power of an operand, so that no predicate and nothing looser stands in them bare.  There is one
lemma for each predicate; it asks how the operands are read and gives the tree.
-/

namespace DocStore

open DocStore.Parser

variable {s s' s'' : Ahead} {l : Lexeme} {ls more others neg : List Lexeme}
  {names later : List String} {negated : Bool} {inner : Sub} {start : Nat}
  {e target pattern low high value right escape : Expr} {w v lower word : String}

theorem keyword_not : Keyword "NOT" "not" := .of_letters rfl (by decide)

/-- The word that negates a predicate, if it is negated. -/
inductive Negates : Bool → List Lexeme → Prop where
  | absent : Negates false []
  | word {w : String} (h : Keyword w "not") : Negates true [.word w]

theorem negates_negationLexemes (negated : Bool) :
    Negates negated (Expr.negationLexemes negated) := by
  cases negated with
  | false => exact .absent
  | true => exact .word keyword_not

/-- No step of a path starts with the words of a predicate. -/
theorem Negates.endsPath (h : Negates negated neg) (hw : Keyword w lower) :
    Ahead.EndsPath ⟨neg ++ .word w :: ls, names⟩ := by
  cases h with
  | absent => exact hw.endsPath
  | word hnot => exact hnot.endsPath

/-- A word that a predicate starts with, or the word that negates it. -/
theorem atPredicate_word (h : Negates negated neg) (hw : Keyword w lower)
    (hlower : lower ∈ predicateWords) :
    atPredicate (Ahead.cursor ⟨neg ++ .word w :: ls, names⟩) = true := by
  have hnot : lower ≠ "not" := ne_of_mem_of_not_mem hlower (by decide)
  have hword : predicateWords.any (Lexeme.word w).token.isWord = true :=
    List.any_eq_true.mpr ⟨lower, hlower, hw.isWord_self⟩
  cases h with
  | absent =>
      have hfirst : Cursor.isWordAt (Ahead.cursor ⟨.word w :: ls, names⟩) 0 "not" = false :=
        hw.isWord_of_ne hnot
      simp only [atPredicate, List.nil_append, hfirst]
      exact Bool.or_eq_true_iff.mpr (.inr hword)
  | @word v hv =>
      have hfirst : Cursor.isWordAt (Ahead.cursor ⟨.word v :: .word w :: ls, names⟩) 0 "not"
          = true := hv.isWord_self
      simp only [atPredicate, List.cons_append, List.nil_append, hfirst]
      exact Bool.or_eq_true_iff.mpr (.inr hword)

theorem atPredicate_is (hw : Keyword w "is") :
    atPredicate (Ahead.cursor ⟨.word w :: ls, names⟩) = true := by
  have his : Cursor.isWordAt (Ahead.cursor ⟨.word w :: ls, names⟩) 0 "is" = true := hw.isWord_self
  rw [atPredicate, his, Bool.true_or]

namespace Parses

/-! ## Words -/

/-- Which branch is taken depends on the word ahead. -/
theorem takeWord {p q : Parser Expr} (hw : Keyword w word) (hp : Parses p ⟨ls, names⟩ e s') :
    Parses (Parser.acceptWord word >>= fun found => if found = true then p else q)
      ⟨.word w :: ls, names⟩ e s' :=
  bind_true (acceptWord hw.isWord_self) hp

theorem skipWord {p q : Parser Expr} (hw : Keyword w lower) (hne : lower ≠ word)
    (hq : Parses q ⟨.word w :: ls, names⟩ e s') :
    Parses (Parser.acceptWord word >>= fun found => if found = true then p else q)
      ⟨.word w :: ls, names⟩ e s' :=
  bind_false (acceptWord_false (hw.isWord_of_ne hne)) hq

/-- The word that negates a predicate, if it is written. -/
theorem negation (h : Negates negated neg) (hl : l.token.isWord "not" = false) :
    Parses (Parser.acceptWord "not") ⟨neg ++ l :: ls, names⟩ negated ⟨l :: ls, names⟩ := by
  cases h with
  | absent => exact acceptWord_false hl
  | word hnot => exact acceptWord hnot.isWord_self

theorem requireLiterals {position : Nat} (h : e.holdsLiterals = true) :
    Parses (Parser.requireLiterals e position) s () s := by
  cases e with
  | array items =>
      have hliteral : ∀ item ∈ items, item.isLiteral = true := Expr.allLiteral_iff.mp h
      have hnone : (items.find? fun item => !item.isLiteral) = none :=
        List.find?_eq_none.mpr fun item hitem => by simp [hliteral item hitem]
      rw [Parser.requireLiterals, hnone]
      exact pure _
  | _ => exact pure _

/-! ## The predicates -/

theorem predicate_in (hneg : Negates negated neg) (hw : Keyword w "in")
    (hlist : Parses (inList inner target negated) ⟨more, names⟩ e s') :
    Parses (predicate inner target start) ⟨neg ++ .word w :: more, names⟩ e s' := by
  rw [predicate]
  refine (Parses.negation hneg (hw.isWord_of_ne (by decide))).bind ?_
  exact takeWord hw hlist

theorem inList_paren {items : List Expr}
    (hlist : Parses (Parser.listUntil inner .rightParen ")") ⟨ls, names⟩ items s') :
    Parses (inList inner target negated) ⟨.leftParen :: ls, names⟩
      (.isIn target items negated .paren) s' := by
  rw [inList]
  exact peek.bind (advance.bind (hlist.bind (pure _)))

/-- A list in brackets is read as an array and checked as one. -/
theorem inList_bracket {items : List Expr}
    (hlist : Parses (Parser.listUntil inner .rightBracket "]") ⟨ls, names⟩ items s')
    (hliteral : Expr.allLiteral items = true) :
    Parses (inList inner target negated) ⟨.leftBracket :: ls, names⟩
      (.isIn target items negated .bracket) s' := by
  have hholds : (Expr.array items).holdsLiterals = true := hliteral
  rw [inList]
  refine peek.bind (position_bind fun _ => (primary_leftBracket hlist).bind ?_)
  exact (requireLiterals hholds).bind (pure _)

theorem predicate_overlaps (hneg : Negates negated neg) (hw : Keyword w "overlaps")
    (htarget : target.holdsLiterals = true) (hliterals : right.holdsLiterals = true)
    (hright : Parses (inner operandPower) ⟨more, names⟩ right s') :
    Parses (predicate inner target start) ⟨neg ++ .word w :: more, names⟩
      (.overlaps target right negated) s' := by
  rw [predicate]
  refine (Parses.negation hneg (hw.isWord_of_ne (by decide))).bind ?_
  refine skipWord hw (by decide) (takeWord hw ?_)
  refine (requireLiterals htarget).bind (position_bind fun _ => ?_)
  exact hright.bind ((requireLiterals hliterals).bind (pure _))

theorem predicate_like (hneg : Negates negated neg) (hw : Keyword w "like")
    (hpattern : Parses (inner operandPower) ⟨more, names⟩ pattern s')
    (hescape : s'.isWordAt 0 "escape" = false) :
    Parses (predicate inner target start) ⟨neg ++ .word w :: more, names⟩
      (.like target pattern none negated) s' := by
  rw [predicate]
  refine (Parses.negation hneg (hw.isWord_of_ne (by decide))).bind ?_
  refine skipWord hw (by decide) (skipWord hw (by decide) (takeWord hw ?_))
  exact hpattern.bind (bind_false (acceptWord_false hescape) (pure _))

theorem predicate_likeEscape (hneg : Negates negated neg) (hw : Keyword w "like")
    (hpattern : Parses (inner operandPower) ⟨more, names⟩ pattern ⟨.word v :: others, later⟩)
    (hv : Keyword v "escape") (hescape : Parses (inner operandPower) ⟨others, later⟩ escape s') :
    Parses (predicate inner target start) ⟨neg ++ .word w :: more, names⟩
      (.like target pattern (some escape) negated) s' := by
  rw [predicate]
  refine (Parses.negation hneg (hw.isWord_of_ne (by decide))).bind ?_
  refine skipWord hw (by decide) (skipWord hw (by decide) (takeWord hw ?_))
  refine hpattern.bind (bind_true (acceptWord hv.isWord_self) ?_)
  exact (hescape.map some).bind (pure _)

theorem predicate_between (hneg : Negates negated neg) (hw : Keyword w "between")
    (hlow : Parses (inner operandPower) ⟨more, names⟩ low ⟨.word v :: others, later⟩)
    (hv : Keyword v "and") (hhigh : Parses (inner operandPower) ⟨others, later⟩ high s') :
    Parses (predicate inner target start) ⟨neg ++ .word w :: more, names⟩
      (.between target low high negated) s' := by
  rw [predicate]
  refine (Parses.negation hneg (hw.isWord_of_ne (by decide))).bind ?_
  refine skipWord hw (by decide) (skipWord hw (by decide) ?_)
  refine skipWord hw (by decide) (takeWord hw ?_)
  exact hlow.bind ((expectWord hv.isWord_self).bind (hhigh.bind (pure _)))

theorem predicate_regexp (hneg : Negates negated neg) (hw : Keyword w "regexp")
    (hpattern : Parses (inner operandPower) ⟨more, names⟩ pattern s') :
    Parses (predicate inner target start) ⟨neg ++ .word w :: more, names⟩
      (.regexp target pattern negated) s' := by
  rw [predicate]
  refine (Parses.negation hneg (hw.isWord_of_ne (by decide))).bind ?_
  refine skipWord hw (by decide) (skipWord hw (by decide) ?_)
  refine skipWord hw (by decide) (skipWord hw (by decide) (takeWord hw ?_))
  exact hpattern.bind (pure _)

/-- The word that negates `IS` comes after it; no other negation may follow. -/
theorem predicate_is (hneg : Negates negated neg) (hw : Keyword w "is")
    (hl : l.token.isWord "not" = false)
    (hvalue : Parses (inner operandPower) ⟨l :: more, names⟩ value s') :
    Parses (predicate inner target start) ⟨.word w :: (neg ++ l :: more), names⟩
      (.isValue target value negated) s' := by
  rw [predicate]
  have hnot : (Lexeme.word w).token.isWord "not" = false := hw.isWord_of_ne (by decide)
  refine Parses.bind (acceptWord_false (s := ⟨.word w :: _, names⟩) hnot) ?_
  refine skipWord hw (by decide) (skipWord hw (by decide) ?_)
  refine skipWord hw (by decide) (skipWord hw (by decide) ?_)
  refine skipWord hw (by decide) ?_
  rw [if_neg Bool.false_ne_true]
  refine (expectWord hw.isWord_self).bind ?_
  exact (Parses.negation hneg hl).bind (hvalue.bind (pure _))

end Parses

end DocStore
