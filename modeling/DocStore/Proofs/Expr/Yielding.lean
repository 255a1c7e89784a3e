import DocStore.Proofs.Expr.Accepted
import DocStore.Proofs.Number

/-!
# What parsers can give

`Yields p P` says that whatever the parser `p` gives, if it gives anything, has the property `P`.
There is one rule for each way to build a parser, so a proof about all results of a parser follows
its text.

Parsers look at tokens that a lexer has made (`Token.Sound`): of a number token they may count on a
digit or a point in front.
-/

namespace DocStore

open DocStore.Parser

/-! ## Tokens -/

/-- A number token starts as a numeral does, and the tokens of signs are the signs. -/
structure Token.Sound (token : Token) : Prop where
  number : token.kind = .integer ∨ token.kind = .float → Decimal.StartsNumeral token.text.toList
  minus : token.kind = .minus → token.text = "-"
  plus : token.kind = .plus → token.text = "+"

namespace Token

theorem sound_of_kind {kind : TokenKind} {start stop : Nat} {text : String}
    (h : kind ∉ [.integer, .float, .minus, .plus]) : Sound ⟨kind, start, stop, text⟩ := by
  simp only [List.mem_cons, List.not_mem_nil, or_false, not_or] at h
  exact ⟨fun hkind => (hkind.elim h.1 h.2.1).elim, fun hkind => absurd hkind h.2.2.1,
    fun hkind => absurd hkind h.2.2.2⟩

theorem operator?_sound {c : Char} {next : Option Char} {kind : TokenKind} {length : Nat}
    (h : operator? c next = some (kind, length)) :
    (kind ≠ .integer ∧ kind ≠ .float)
      ∧ (kind = .minus → c = '-' ∧ length = 1) ∧ (kind = .plus → c = '+' ∧ length = 1) := by
  unfold operator? at h
  split at h
  all_goals cases h
  all_goals decide

theorem kind_number (cs : List Char) : (number cs).1 = .integer ∨ (number cs).1 = .float := by
  rw [number]
  split
  · exact .inl rfl
  · exact .inr rfl

theorem sound_of_scan {offset start stop : Nat} {afterStep : Bool} {c : Char} {rest : List Char}
    {kind : TokenKind} {length : Nat} (h : scan offset afterStep c rest = .ok (kind, length)) :
    Sound ⟨kind, start, stop, String.ofList (c :: rest.take (length - 1))⟩ := by
  revert h
  fun_cases scan offset afterStep c rest <;> intro h
  case case1 hname length word =>
      obtain ⟨hkind, -⟩ := Prod.mk.inj (Except.ok.inj h)
      refine sound_of_kind ?_
      rw [← hkind]
      split <;> decide
  case case2 hname hnumber =>
      have hkind : kind = .integer ∨ kind = .float := by
        have hfound := kind_number (c :: rest)
        rwa [Except.ok.inj h] at hfound
      -- The lexer came here by the first character.
      have hstart : c.isDigit = true ∨ c = '.' := by
        rw [Bool.or_eq_true, Bool.and_eq_true, Bool.and_eq_true, decide_eq_true_eq] at hnumber
        exact hnumber.imp_right fun hdot => hdot.1.1
      refine ⟨fun _ => ⟨c, ?_, hstart⟩, fun hminus => ?_, fun hplus => ?_⟩
      · rw [String.toList_ofList]
        rfl
      · rcases hkind with h | h <;> cases h.symm.trans hminus
      · rcases hkind with h | h <;> cases h.symm.trans hplus
  case case3 hname hnumber hquote length hlength =>
      cases h
      exact sound_of_kind (by decide)
  case case4 => cases h
  case case5 hname hnumber hquote hback length hlength =>
      cases h
      exact sound_of_kind (by decide)
  case case6 => cases h
  case case7 hname hnumber hquote hback found hfound =>
      cases h
      obtain ⟨hnumber, hminus, hplus⟩ := operator?_sound hfound
      refine ⟨fun hkind => (hkind.elim hnumber.1 hnumber.2).elim, fun hkind => ?_, fun hkind => ?_⟩
      · obtain ⟨rfl, rfl⟩ := hminus hkind
        rfl
      · obtain ⟨rfl, rfl⟩ := hplus hkind
        rfl
  case case8 => cases h

theorem sound_of_lexFrom {offset : Nat} {last : Option Token} {cs : List Char}
    {tokens : List Token} (h : lexFrom offset last cs = .ok tokens) :
    ∀ token ∈ tokens, token.Sound := by
  revert h
  fun_induction lexFrom offset last cs generalizing tokens <;> intro h
  case case1 =>
      cases h
      exact List.forall_mem_singleton.mpr (sound_of_kind (by decide))
  case case2 hblank ih => exact ih h
  case case3 => cases h
  case case4 => cases h
  case case5 hscan _ _ _ more hmore ih =>
      cases h
      exact List.forall_mem_cons.mpr ⟨sound_of_scan hscan, ih hmore⟩

end Token

/-! ## Parsers -/

/-- The tokens ahead have been made by the lexer. -/
def Cursor.Sound (c : Cursor) : Prop := ∀ token ∈ c.rest, token.Sound

/-- From here, whatever the parser gives has the property. -/
def YieldsAt {α : Type} (c : Cursor) (p : Parser α) (P : α → Prop) : Prop :=
  ∀ a c', p c = .ok (a, c') → P a ∧ c'.Sound

/-- Whatever the parser gives has the property. -/
def Yields {α : Type} (p : Parser α) (P : α → Prop) : Prop :=
  ∀ c : Cursor, c.Sound → YieldsAt c p P

variable {α β : Type} {p q : Parser α} {f : α → Parser β} {P Q : α → Prop} {R : β → Prop} {a : α}
  {c : Cursor}

namespace YieldsAt

theorem bind (hp : YieldsAt c p P) (hf : ∀ a, P a → Yields (f a) R) : YieldsAt c (p >>= f) R := by
  intro b c' heq
  obtain ⟨a, c₁, hfirst, hrest⟩ := bind_eq_ok.mp heq
  obtain ⟨ha, hc₁⟩ := hp a c₁ hfirst
  exact hf a ha c₁ hc₁ b c' hrest

/-- A parser that looks at the kind of the next token. -/
theorem peek_bind {f : TokenKind → Parser β} (h : YieldsAt c (f (c.kindAt 0)) R) :
    YieldsAt c (Parser.peek >>= f) R := h

/-- A parser that looks at the next token. -/
theorem peek?_bind {f : Option Token → Parser β} (h : YieldsAt c (f c.rest.head?) R) :
    YieldsAt c (Parser.peek? >>= f) R := h

theorem position_bind {f : Nat → Parser β} (h : YieldsAt c (f c.position) R) :
    YieldsAt c (Parser.position >>= f) R := h

end YieldsAt

namespace Yields

/-! ### Building parsers -/

theorem pure (h : P a) : Yields (Pure.pure a) P := by
  intro c hc a' c' heq
  cases heq
  exact ⟨h, hc⟩

theorem bind (hp : Yields p P) (hf : ∀ a, P a → Yields (f a) R) : Yields (p >>= f) R :=
  fun c hc => (hp c hc).bind hf

theorem map (g : α → β) (hp : Yields p fun a => R (g a)) : Yields (g <$> p) R := by
  rw [map_eq_pure_bind]
  exact hp.bind fun a ha => pure ha

theorem mono (hp : Yields p P) (h : ∀ a, P a → Q a) : Yields p Q := by
  intro c hc a c' heq
  obtain ⟨ha, hc'⟩ := hp c hc a c' heq
  exact ⟨h a ha, hc'⟩

theorem ite {condition : Prop} [Decidable condition] (hp : condition → Yields p P)
    (hq : ¬condition → Yields q P) : Yields (if condition then p else q) P := by
  split
  · next h => exact hp h
  · next h => exact hq h

/-- A parser that stops with an error gives nothing. -/
theorem throw (e : ParseError) : Yields (throw e : Parser α) P := by
  intro c _ a c' heq
  cases heq

/-! ### Looking ahead and moving forward -/

theorem get : Yields (get : Parser Cursor) Cursor.Sound := by
  intro c hc a c' heq
  cases heq
  exact ⟨hc, hc⟩

theorem set {c : Cursor} (h : c.Sound) : Yields (set c : Parser PUnit) fun _ => True := by
  intro c _ a c' heq
  cases heq
  exact ⟨trivial, h⟩

theorem position : Yields Parser.position fun _ => True := get.bind fun _ _ => pure trivial

theorem remaining : Yields Parser.remaining fun _ => True := get.bind fun _ _ => pure trivial

theorem peek : Yields Parser.peek fun _ => True := get.bind fun _ _ => pure trivial

theorem peek? : Yields Parser.peek? fun found => ∀ token ∈ found, token.Sound :=
  get.bind fun _ hc => pure fun token htoken => hc token (List.mem_of_mem_head? htoken)

theorem advance : Yields Parser.advance fun _ => True := by
  intro c hc a c' heq
  obtain ⟨rest, position, names⟩ := c
  cases rest with
  | nil =>
      cases heq
      exact ⟨trivial, hc⟩
  | cons token rest =>
      cases heq
      exact ⟨trivial, fun t ht => hc t (List.mem_cons_of_mem _ ht)⟩

theorem failHere (error : Nat → ParseError) : Yields (Parser.failHere error : Parser α) P :=
  position.bind fun _ _ => throw _

theorem unexpected : Yields (Parser.unexpected : Parser α) P := by
  refine peek?.bind fun found _ => ?_
  cases found with
  | none => exact failHere _
  | some token => exact failHere _

theorem accept (kind : TokenKind) : Yields (Parser.accept kind) fun _ => True :=
  peek.bind fun _ _ => ite (fun _ => advance.bind fun _ _ => pure trivial) fun _ => pure trivial

theorem acceptWord (word : String) : Yields (Parser.acceptWord word) fun _ => True :=
  get.bind fun _ _ => ite (fun _ => advance.bind fun _ _ => pure trivial) fun _ => pure trivial

/-- A choice by the next token. -/
theorem ifAccept {kind : TokenKind} (hp : Yields p P) (hq : Yields q P) :
    Yields (Parser.accept kind >>= fun found => if found = true then p else q) P :=
  (accept kind).bind fun _ _ => ite (fun _ => hp) fun _ => hq

/-- A choice by the next word. -/
theorem ifWord {word : String} (hp : Yields p P) (hq : Yields q P) :
    Yields (Parser.acceptWord word >>= fun found => if found = true then p else q) P :=
  (acceptWord word).bind fun _ _ => ite (fun _ => hp) fun _ => hq

theorem require (found : Bool) (what : String) :
    Yields (Parser.require found what) fun _ => True := by
  refine ite (fun _ => pure trivial) fun _ => peek?.bind fun token? _ => ?_
  cases token? with
  | none => exact failHere _
  | some token => exact failHere _

theorem expect (kind : TokenKind) (what : String) :
    Yields (Parser.expect kind what) fun _ => True :=
  (accept kind).bind fun found _ => require found what

theorem expectWord (word : String) : Yields (Parser.expectWord word) fun _ => True :=
  (acceptWord word).bind fun found _ => require found _

theorem expectEnd : Yields Parser.expectEnd fun _ => True := by
  refine peek?.bind fun found _ => ?_
  cases found with
  | none => exact pure trivial
  | some token => exact unexpected

/-! ### Lists -/

theorem further (hp : Yields p P) (bound : Nat) :
    Yields (commaSeparated.further p bound) fun items => ∀ item ∈ items, P item := by
  induction bound with
  | zero => exact pure nofun
  | succ bound ih =>
      refine ifAccept ?_ (pure nofun)
      exact hp.bind fun item hitem => ih.bind fun items hitems =>
        pure (List.forall_mem_cons.mpr ⟨hitem, hitems⟩)

theorem commaSeparated (hp : Yields p P) :
    Yields (Parser.commaSeparated p) fun items => ∀ item ∈ items, P item :=
  hp.bind fun _ hfirst => remaining.bind fun bound _ => (further hp bound).bind fun _ hmore =>
    pure (List.forall_mem_cons.mpr ⟨hfirst, hmore⟩)

/-! ### Whole sources -/

theorem run {source : String} (hp : Yields p P) (h : (Parser.run p source).map Prod.fst = .ok a) :
    P a := by
  obtain ⟨tokens, c', hlex, hread⟩ := exists_lex_of_run h
  have hsound : (Cursor.ofTokens tokens).Sound := fun token htoken =>
    Token.sound_of_lexFrom hlex token (List.mem_filter.mp htoken).1
  exact (hp _ hsound _ _ hread).1

end Yields

end DocStore
