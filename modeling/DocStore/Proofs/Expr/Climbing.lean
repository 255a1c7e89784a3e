import DocStore.Proofs.Expr.Sparse
import DocStore.Proofs.Expr.Predicate

/-!
# Reading by precedence

Main statement: `Expr.parse_sparseText`, text with parentheses only where the table of binding powers
asks for them is read as the tree it was written for.

A tree at the left end of a longer one is not read by itself: the parser comes to it with the least
power of the whole, and once it has it, it goes on with the operators behind it.  So `Climbs` says
what an expression gives that starts with a tree, if going on from the tree gives it.
-/

namespace DocStore

open DocStore.Parser

variable {spelling : Spelling} {s s' : Ahead} {l : Lexeme} {ls more : List Lexeme}
  {names : List String} {n m least depth : Nat} {op : BinaryOp} {negated : Bool}
  {e inner left right target pattern low high value : Expr}

namespace Expr

/-- The lexemes of a tree in a place that asks for a level. -/
def sparseAt (spelling : Spelling) (n : Nat) (e : Expr) : List Lexeme :=
  Lexeme.enclose (e.level < n) (e.sparse spelling)

theorem sparseAt_of_le (h : n ≤ e.level) : e.sparseAt spelling n = e.sparse spelling := by
  rw [sparseAt, decide_eq_false (Nat.not_lt.mpr h)]
  rfl

end Expr

/-! ## What follows a tree -/

theorem leftPower_eq (op : BinaryOp) : leftPower op = op.level := by cases op <;> rfl

theorem Stops.mono (h : Stops n s) (hnm : n ≤ m) : Stops m s :=
  ⟨fun hat => Nat.lt_of_lt_of_le (h.predicate hat) hnm,
    fun op hop => Nat.lt_of_lt_of_le (h.operator op hop) hnm⟩

/-- What may follow a tree in a place that asks for the level `n`: an operator of this level or
below, or the end of what the tree stands in. -/
structure Follows (n : Nat) (s : Ahead) : Prop where
  stops : Stops (n + 1) s
  path : s.EndsPath
  call : s.kindAt 0 ≠ .leftParen
  escape : n < operandPower → s.isWordAt 0 "escape" = false

theorem Follows.mono (h : Follows n s) (hnm : n ≤ m) : Follows m s :=
  ⟨h.stops.mono (Nat.succ_le_succ hnm), h.path, h.call, fun hm => h.escape (by omega)⟩

theorem Closes.follows (h : Closes ls) : Follows n ⟨ls, names⟩ := by
  refine ⟨h.stops, h.endsPath, ?_, fun _ => h.isWordAt "escape"⟩
  cases ls with
  | nil =>
      show TokenKind.eof ≠ .leftParen
      decide
  | cons l more =>
      show l.kind ≠ .leftParen
      rcases h with h | h | h | h <;> rw [h] <;> decide

/-- The words that come after a target or after a pattern. -/
def predicateStarts : List String := "not" :: "is" :: "escape" :: predicateWords

/-- The lexeme of an operator is no other part of the grammar. -/
structure IsOperator (op : BinaryOp) (l : Lexeme) : Prop where
  binary : binaryOp? l.token = some op
  noStep : l.kind.startsStep = false
  noParen : l.kind ≠ .leftParen
  noWord : ∀ word ∈ predicateStarts, l.token.isWord word = false

theorem IsOperator.atPredicate (h : IsOperator op l) :
    atPredicate (Ahead.cursor ⟨l :: ls, names⟩) = false := by
  have hword : ∀ word ∈ predicateStarts,
      Cursor.isWordAt (Ahead.cursor ⟨l :: ls, names⟩) 0 word = false := h.noWord
  simp only [predicateStarts, predicateWords, List.forall_mem_cons] at hword
  simp [Parser.atPredicate, predicateWords, hword]

theorem IsOperator.follows (h : IsOperator op l) : Follows op.level ⟨l :: ls, names⟩ := by
  refine ⟨⟨fun hat => ?_, fun op' hop' => ?_⟩, h.noStep, h.noParen,
    fun _ => h.noWord _ (by decide)⟩
  · rw [h.atPredicate] at hat
    cases hat
  · obtain rfl : op = op' := Option.some.inj (h.binary.symm.trans hop')
    rw [leftPower_eq]
    exact Nat.lt_succ_self _

/-- The words that a predicate starts with and the one that negates it. -/
theorem Keyword.follows {w low : String} (h : Keyword w low)
    (hlow : low ∈ "not" :: "is" :: predicateWords) : Follows predicatePower ⟨.word w :: ls, names⟩ := by
  have hnone : binaryOp? (Lexeme.word w).token = none := by
    have hne : ∀ low ∈ "not" :: "is" :: predicateWords, low ≠ "or" ∧ low ≠ "and" ∧ low ≠ "div" := by
      decide
    simp [binaryOp?_of_keyword h.kind, h.isWord, hne low hlow]
  refine ⟨⟨fun _ => Nat.lt_succ_self _, fun op hop => ?_⟩, h.endsPath, ?_, fun _ => ?_⟩
  · cases hnone.symm.trans hop
  · show (Lexeme.word w).kind ≠ .leftParen
    rw [h.kind]
    decide
  · refine h.isWord_of_ne ?_
    rintro rfl
    revert hlow
    decide

theorem Negates.follows {w low : String} {neg : List Lexeme} (h : Negates negated neg)
    (hw : Keyword w low) (hlow : low ∈ predicateWords) :
    Follows predicatePower ⟨neg ++ .word w :: ls, names⟩ := by
  cases h with
  | absent => exact hw.follows (List.mem_cons_of_mem _ (List.mem_cons_of_mem _ hlow))
  | word hnot => exact hnot.follows List.mem_cons_self

/-- An expression that starts with the tree gives whatever going on from the tree gives. -/
def Climbs (spelling : Spelling) (n : Nat) (e : Expr) : Prop :=
  ∀ ⦃names least depth ls r s⦄, least ≤ n → (e.sparseAt spelling n).length ≤ depth →
    Follows n ⟨ls, names⟩ →
    (∀ start bound, ls.length ≤ bound →
      Parses (operators (expression depth) least start bound e) ⟨ls, names⟩ r s) →
    Parses (expression (depth + 1) least) ⟨e.sparseAt spelling n ++ ls, names⟩ r s

/-- Where no operator that follows belongs to it, the tree is the whole expression. -/
theorem Climbs.sub (h : Climbs spelling n e) (hleast : least ≤ n)
    (hdepth : (e.sparseAt spelling n).length < depth) (hfollows : Follows n ⟨ls, names⟩)
    (hstop : Stops least ⟨ls, names⟩) :
    Parses (expression depth least) ⟨e.sparseAt spelling n ++ ls, names⟩ e ⟨ls, names⟩ := by
  obtain ⟨depth, rfl⟩ := Nat.exists_eq_succ_of_ne_zero (Nat.ne_zero_of_lt hdepth)
  exact h hleast (Nat.le_of_lt_succ hdepth) hfollows fun _ _ _ => Parses.operators_stop hstop

/-- A tree in parentheses is an operand. -/
theorem Climbs.operand_paren (h : Climbs spelling 0 e)
    (hdepth : (e.sparse spelling).length + 2 ≤ depth) :
    Parses (operand (expression depth))
      ⟨.leftParen :: (e.sparse spelling ++ .rightParen :: ls), names⟩ e ⟨ls, names⟩ := by
  have hclose : Closes (.rightParen :: ls) := .inr (.inl rfl)
  have hsparse : e.sparseAt spelling 0 = e.sparse spelling := Expr.sparseAt_of_le (Nat.zero_le _)
  have hread : Parses (expression depth 0) ⟨e.sparseAt spelling 0 ++ .rightParen :: ls, names⟩ e
      ⟨.rightParen :: ls, names⟩ :=
    h.sub (Nat.le_refl 0) (by rw [hsparse]; omega) hclose.follows hclose.stops
  rw [hsparse] at hread
  exact Parses.operand_paren hread

/-- What follows a tree makes no call of the name before it. -/
theorem Follows.startsCall (h : Follows n ⟨ls, names⟩) :
    startsCall (Ahead.cursor ⟨l :: ls, names⟩) = false := by
  have hparen : (Ahead.cursor ⟨l :: ls, names⟩).kindAt 1 ≠ .leftParen := h.call
  have hdot : (Ahead.cursor ⟨l :: ls, names⟩).kindAt 1 ≠ .dot := by
    intro heq
    have hpath : ((Ahead.cursor ⟨l :: ls, names⟩).kindAt 1).startsStep = false := h.path
    rw [heq] at hpath
    cases hpath
  simp [Parser.startsCall, hparen, hdot]

/-- An operand of a predicate, with what may follow the predicate after it. -/
theorem Climbs.operand (h : ∀ n, Climbs spelling n e)
    (hdepth : (e.sparseAt spelling operandPower).length < depth)
    (hfollows : Follows predicatePower ⟨ls, names⟩) :
    Parses (expression depth operandPower) ⟨e.sparseAt spelling operandPower ++ ls, names⟩ e
      ⟨ls, names⟩ :=
  (h operandPower).sub (Nat.le_refl _) hdepth (hfollows.mono (by decide))
    (hfollows.stops.mono (by decide))

namespace Expr

theorem Elementary.holdsLiterals (he : e.Elementary) : e.holdsLiterals = true := by
  cases he <;> rfl

end Expr

end DocStore
