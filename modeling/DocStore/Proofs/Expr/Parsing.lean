import DocStore.Expr.Parser
import DocStore.Proofs.Expr.Lexing

/-!
# What parsers give

Whether a parser succeeds and what it gives depends on the lexemes ahead and on the placeholder
names met so far (`Ahead`), not on where in the source the lexemes stand.  `Parses p s a s'` says
that the parser `p`, with `s` ahead, gives `a` and leaves `s'` ahead.

There is one rule for each way to build a parser.  Proofs about the grammar go through them and do
not look into cursors.
-/

namespace DocStore

/-- The lexeme as a token. -/
def Lexeme.token (l : Lexeme) : Token := ⟨l.kind, 0, 0, l.text⟩

/-- The lexemes ahead of a parser and the names of the placeholders it has met. -/
structure Ahead where
  lexemes : List Lexeme
  names : List String

namespace Ahead

/-- A cursor with this ahead. -/
def cursor (s : Ahead) : Cursor := ⟨s.lexemes.map Lexeme.token, 0, s.names⟩

def kindAt (s : Ahead) (n : Nat) : TokenKind := s.cursor.kindAt n

def isWordAt (s : Ahead) (n : Nat) (word : String) : Bool := s.cursor.isWordAt n word

end Ahead

namespace Cursor

def ahead (c : Cursor) : Ahead := ⟨c.rest.map Token.lexeme, c.names⟩

theorem kindAt_eq (c : Cursor) (n : Nat) : c.kindAt n = c.ahead.kindAt n := by
  rw [Ahead.kindAt, kindAt, kindAt, Ahead.cursor, ahead, List.map_map, List.getElem?_map]
  cases c.rest[n]? <;> rfl

theorem isWordAt_eq (c : Cursor) (n : Nat) (word : String) :
    c.isWordAt n word = c.ahead.isWordAt n word := by
  rw [Ahead.isWordAt, isWordAt, isWordAt, Ahead.cursor, ahead, List.map_map, List.getElem?_map]
  cases c.rest[n]? <;> rfl

end Cursor

/-- With `s` ahead, the parser gives `a` and leaves `s'` ahead. -/
def Parses {α : Type} (p : Parser α) (s : Ahead) (a : α) (s' : Ahead) : Prop :=
  ∀ c : Cursor, c.ahead = s → ∃ c', p c = .ok (a, c') ∧ c'.ahead = s'

namespace Parses

open DocStore.Parser

variable {α β : Type} {a : α} {b : β} {s s' s'' : Ahead} {l : Lexeme} {ls : List Lexeme}
  {names : List String}

/-- A parser gives one thing only. -/
theorem eq_of_ok {p : Parser α} {c c' : Cursor} (hp : Parses p s a s') (hc : c.ahead = s)
    {b : α} (h : p c = .ok (b, c')) : b = a ∧ c'.ahead = s' := by
  obtain ⟨c₁, hread, hc₁⟩ := hp c hc
  rw [hread] at h
  cases h
  exact ⟨rfl, hc₁⟩

/-! ## Building parsers -/

theorem pure (a : α) : Parses (Pure.pure a) s a s := fun c hc => ⟨c, rfl, hc⟩

theorem bind {p : Parser α} {f : α → Parser β} (hp : Parses p s a s') (hf : Parses (f a) s' b s'') :
    Parses (p >>= f) s b s'' := by
  intro c hc
  obtain ⟨c', hp', hc'⟩ := hp c hc
  obtain ⟨c'', hf', hc''⟩ := hf c' hc'
  refine ⟨c'', ?_, hc''⟩
  show (p c >>= fun x => f x.1 x.2) = _
  rw [hp']
  exact hf'

theorem map {p : Parser α} (f : α → β) (hp : Parses p s a s') : Parses (f <$> p) s (f a) s' := by
  intro c hc
  obtain ⟨c', hp', hc'⟩ := hp c hc
  refine ⟨c', ?_, hc'⟩
  show (p c >>= fun x => Except.ok (f x.1, x.2)) = _
  rw [hp']
  rfl

/-- A choice that is decided. -/
theorem bind_true {p : Parser Bool} {f g : Parser β} (hp : Parses p s true s')
    (hf : Parses f s' b s'') : Parses (p >>= fun x => if x = true then f else g) s b s'' :=
  bind hp hf

theorem bind_false {p : Parser Bool} {f g : Parser β} (hp : Parses p s false s')
    (hg : Parses g s' b s'') : Parses (p >>= fun x => if x = true then f else g) s b s'' :=
  bind hp hg

/-! ## Looking ahead -/

theorem get_bind {f : Cursor → Parser β} (h : ∀ c : Cursor, c.ahead = s → Parses (f c) s b s') :
    Parses (get >>= f) s b s' := fun c hc => h c hc c hc

theorem position_bind {f : Nat → Parser β} (h : ∀ n, Parses (f n) s b s') :
    Parses (position >>= f) s b s' := fun c hc => h c.position c hc

theorem remaining : Parses Parser.remaining s s.lexemes.length s := by
  intro c hc
  refine ⟨c, ?_, hc⟩
  rw [← hc, Cursor.ahead, List.length_map]
  rfl

/-- A parser that looks at the next token sees its kind and its text. -/
theorem peek?_bind {f : Option Token → Parser β}
    (h : ∀ token : Token, token.kind = l.kind → token.text = l.text →
      Parses (f (some token)) ⟨l :: ls, names⟩ b s') :
    Parses (peek? >>= f) ⟨l :: ls, names⟩ b s' := by
  intro c hc
  obtain ⟨rest, position, others⟩ := c
  cases rest with
  | nil => cases hc
  | cons token more =>
      obtain ⟨hl, -⟩ := List.cons.inj (congrArg Ahead.lexemes hc)
      exact h token (congrArg Lexeme.kind hl) (congrArg Lexeme.text hl) _ hc

theorem peek?_bind_nil {f : Option Token → Parser β} (h : Parses (f none) ⟨[], names⟩ b s') :
    Parses (peek? >>= f) ⟨[], names⟩ b s' := by
  intro c hc
  obtain ⟨rest, position, others⟩ := c
  cases rest with
  | nil => exact h _ hc
  | cons token more => cases hc

theorem peek : Parses Parser.peek s (s.kindAt 0) s := by
  intro c hc
  refine ⟨c, ?_, hc⟩
  rw [← hc, ← Cursor.kindAt_eq]
  rfl

/-! ## Moving forward -/

theorem advance : Parses Parser.advance ⟨l :: ls, names⟩ () ⟨ls, names⟩ := by
  intro c hc
  obtain ⟨rest, position, others⟩ := c
  cases rest with
  | nil => cases hc
  | cons token more =>
      refine ⟨⟨more, position + 1, others⟩, rfl, ?_⟩
      cases hc
      rfl

theorem accept {kind : TokenKind} (h : l.kind = kind) :
    Parses (Parser.accept kind) ⟨l :: ls, names⟩ true ⟨ls, names⟩ := by
  rw [Parser.accept]
  refine peek.bind ?_
  have hkind : Ahead.kindAt ⟨l :: ls, names⟩ 0 = kind := h
  rw [if_pos hkind]
  exact advance.bind (pure true)

theorem accept_false {kind : TokenKind} (h : s.kindAt 0 ≠ kind) :
    Parses (Parser.accept kind) s false s := by
  rw [Parser.accept]
  refine peek.bind ?_
  rw [if_neg h]
  exact pure false

theorem reject {kind : TokenKind} (h : (l.kind == kind) = false) :
    Parses (Parser.accept kind) ⟨l :: ls, names⟩ false ⟨l :: ls, names⟩ :=
  accept_false (ne_of_beq_false h)

theorem acceptWord {word : String} (h : l.token.isWord word = true) :
    Parses (Parser.acceptWord word) ⟨l :: ls, names⟩ true ⟨ls, names⟩ := by
  rw [Parser.acceptWord]
  refine get_bind fun c hc => ?_
  have hword : c.isWordAt 0 word = true := by rw [Cursor.isWordAt_eq, hc]; exact h
  rw [if_pos hword]
  exact advance.bind (pure true)

theorem acceptWord_false {word : String} (h : s.isWordAt 0 word = false) :
    Parses (Parser.acceptWord word) s false s := by
  rw [Parser.acceptWord]
  refine get_bind fun c hc => ?_
  have hword : ¬ c.isWordAt 0 word = true := by 
    rw [Cursor.isWordAt_eq, hc, h]
    exact Bool.false_ne_true
  rw [if_neg hword]
  exact pure false

theorem expect {kind : TokenKind} {what : String} (h : l.kind = kind) :
    Parses (Parser.expect kind what) ⟨l :: ls, names⟩ () ⟨ls, names⟩ := by
  rw [Parser.expect]
  exact (accept h).bind (pure ())

theorem expectWord {word : String} (h : l.token.isWord word = true) :
    Parses (Parser.expectWord word) ⟨l :: ls, names⟩ () ⟨ls, names⟩ := by
  rw [Parser.expectWord]
  exact (acceptWord h).bind (pure ())

theorem expectEnd : Parses Parser.expectEnd ⟨[], names⟩ () ⟨[], names⟩ := by
  rw [Parser.expectEnd]
  exact peek?_bind_nil (pure ())

/-! ## Whole sources -/

/-- A parser that gives a value for the lexemes of a source gives it for the source. -/
theorem run_of_lex {p : Parser α} {source : String} {tokens : List Token}
    (hlex : Token.lex source = .ok tokens) (hp : Parses p (Cursor.ofTokens tokens).ahead a s) :
    (Parser.run p source).map Prod.fst = .ok a := by
  obtain ⟨c, hp, -⟩ := hp (Cursor.ofTokens tokens) rfl
  have hp : StateT.run p (Cursor.ofTokens tokens) = .ok (a, c) := hp
  rw [Parser.run, hlex]
  show (StateT.run p (Cursor.ofTokens tokens)).map Prod.fst = _
  rw [hp]
  rfl

theorem run {p : Parser α} {source : String} (hlex : Lexes source.toList ls)
    (hp : Parses p ⟨ls, []⟩ a s) : (Parser.run p source).map Prod.fst = .ok a := by
  obtain ⟨tokens, htokens, rfl⟩ := hlex 0 none
  exact run_of_lex ((Token.lex_eq source).trans htokens) hp

end Parses

end DocStore
