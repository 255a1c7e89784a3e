import DocStore.Proofs.Expr.Accepted

/-!
# Parsers that only pass tokens

Most of the grammar looks at tokens and passes them: names, steps of paths, punctuation and words.
Such a parser leaves some of the tokens that were ahead and has met no placeholder (`Passes`).

There is one rule for each way to build a parser, so that the parsers of the grammar follow by the
shape of their text.
-/

namespace DocStore

open DocStore.Parser

/-- The cursor has moved forward, if at all, and has met no placeholder on the way. -/
structure Cursor.Moved (c c' : Cursor) : Prop where
  rest : c'.rest.length ≤ c.rest.length
  names : c'.names = c.names

namespace Cursor.Moved

variable {c c' c'' : Cursor}

theorem refl (c : Cursor) : c.Moved c := ⟨Nat.le_refl _, rfl⟩

theorem trans (h : c.Moved c') (h' : c'.Moved c'') : c.Moved c'' :=
  ⟨Nat.le_trans h'.rest h.rest, h'.names.trans h.names⟩

end Cursor.Moved

/-- Whatever the parser gives, it only has passed tokens. -/
def Passes {α : Type} (p : Parser α) : Prop :=
  ∀ c a c', p c = .ok (a, c') → c.Moved c'

namespace Passes

variable {α β : Type} {p q : Parser α} {f : α → Parser β}

/-! ## Building parsers -/

theorem pure (a : α) : Passes (Pure.pure a) := by
  intro c a' c' h
  cases h
  exact .refl c

theorem bind (hp : Passes p) (hf : ∀ a, Passes (f a)) : Passes (p >>= f) := by
  intro c b c'' h
  obtain ⟨a, c', hp', hf'⟩ := bind_eq_ok.mp h
  exact (hp c a c' hp').trans (hf a c' b c'' hf')

theorem ite {condition : Prop} [Decidable condition] (hp : Passes p) (hq : Passes q) :
    Passes (if condition then p else q) := by
  split
  · exact hp
  · exact hq

theorem throw (e : ParseError) : Passes (throw e : Parser α) := by
  intro c a c' h
  cases h

/-! ## Looking ahead and moving forward -/

theorem get : Passes (get : Parser Cursor) := by
  intro c a c' h
  cases h
  exact .refl c

theorem advance : Passes Parser.advance := by
  intro c a c' h
  obtain ⟨rest, position, names⟩ := c
  cases rest with
  | nil =>
      cases h
      exact .refl _
  | cons token rest =>
      cases h
      exact ⟨Nat.le_succ _, rfl⟩

theorem position : Passes Parser.position := get.bind fun _ => pure _

theorem remaining : Passes Parser.remaining := get.bind fun _ => pure _

theorem peek : Passes Parser.peek := get.bind fun _ => pure _

theorem peek? : Passes Parser.peek? := get.bind fun _ => pure _

theorem failHere (error : Nat → ParseError) : Passes (Parser.failHere error : Parser α) :=
  position.bind fun _ => throw _

/-- A choice by whether there is a next token. -/
theorem ahead {f : Option Token → Parser α} (hnone : Passes (f none))
    (hsome : ∀ token, Passes (f (some token))) : Passes (Parser.peek? >>= f) := by
  refine peek?.bind fun token? => ?_
  cases token? with
  | none => exact hnone
  | some token => exact hsome token

theorem unexpected : Passes (Parser.unexpected : Parser α) :=
  ahead (failHere _) fun _ => failHere _

theorem accept (kind : TokenKind) : Passes (Parser.accept kind) :=
  peek.bind fun _ => ite (advance.bind fun _ => pure _) (pure _)

theorem acceptWord (word : String) : Passes (Parser.acceptWord word) :=
  get.bind fun _ => ite (advance.bind fun _ => pure _) (pure _)

theorem require (found : Bool) (what : String) : Passes (Parser.require found what) :=
  ite (pure _) (ahead (failHere _) fun _ => failHere _)

theorem expect (kind : TokenKind) (what : String) : Passes (Parser.expect kind what) :=
  (accept kind).bind fun found => require found what

theorem expectWord (word : String) : Passes (Parser.expectWord word) :=
  (acceptWord word).bind fun found => require found _

theorem expectEnd : Passes Parser.expectEnd := ahead (pure _) fun _ => unexpected

/-! ## Names, paths and checks -/

theorem memberName : Passes Parser.memberName := by
  refine ahead unexpected fun token => ?_
  dsimp only
  split
  · exact advance.bind fun _ => pure _
  · exact advance.bind fun _ => pure _
  · exact unexpected

theorem aliasName : Passes Parser.aliasName := by
  refine ahead unexpected fun token => ?_
  dsimp only
  split
  · exact advance.bind fun _ => pure _
  · exact advance.bind fun _ => pure _
  · exact advance.bind fun _ => pure _
  · exact unexpected

theorem memberStep : Passes Parser.memberStep := by
  refine ahead (failHere _) fun token => ?_
  dsimp only
  split
  · exact advance.bind fun _ => pure _
  · exact failHere _

theorem indexStep : Passes Parser.indexStep := by
  refine ahead (failHere _) fun token => ?_
  have hrest : ∀ segment : Segment,
      Passes (do Parser.advance; Parser.expect .rightBracket "]"; return segment) :=
    fun segment => advance.bind fun _ => (expect _ _).bind fun _ => pure _
  dsimp only
  split
  · exact hrest _
  · split
    · exact hrest _
    · exact (failHere _).bind hrest
  · exact (failHere _).bind hrest
  · exact (failHere _).bind hrest

theorem pathStep? : Passes Parser.pathStep? := by
  refine (accept _).bind fun _ => ite (memberStep.bind fun _ => pure _) ?_
  refine (accept _).bind fun _ => ite (pure _) ?_
  refine (accept _).bind fun _ => ite (pure _) ?_
  exact (accept _).bind fun _ => ite (indexStep.bind fun _ => pure _) (pure _)

theorem pathSteps (bound : Nat) : Passes (Parser.pathSteps bound) := by
  induction bound with
  | zero => exact pure _
  | succ bound ih =>
      refine pathStep?.bind fun step? => ?_
      cases step? with
      | none => exact pure _
      | some step => exact ih.bind fun _ => pure _

theorem pathFrom (start : List Segment) : Passes (Parser.pathFrom start) :=
  remaining.bind fun bound => (pathSteps bound).bind fun _ =>
    ite ((failHere _).bind fun _ => pure _) (pure _)

theorem requireLiterals (e : Expr) (start : Nat) : Passes (Parser.requireLiterals e start) := by
  cases e with
  | array items =>
      rw [Parser.requireLiterals]
      split
      · exact throw _
      · exact pure _
  | _ => exact pure _

end Passes

end DocStore
