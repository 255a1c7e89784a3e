import DocStore.Proofs.Expr.Accepted
import DocStore.Proofs.Expr.Surroundings

/-!
# Reading a text inside of another one

What a parser gives when its text stands alone it gives as well when the text is an element of a list,
between other elements (`Surroundings`), as long as the placeholders get the same numbers there
(`Surroundings.Agrees`).  `Embeds s used p q` says so of two parsers: whenever `p` gives something, `q`
gives the same in the surroundings, and leaves what `p` leaves, and what comes after it.  The two are one
parser, up to the bounds of their loops: there are more tokens ahead of `q`.  The number of tokens that
`p` takes is part of the statement, as loops need it.

A list inside of the text is special: where it ends with the text, a comma after it would go on with
it.  `EmbedsList` leaves that end open, and a closing delimiter, which a list needs unless it is a
whole text itself, settles it (`EmbedsList.close`).

There is one rule for each way to build a parser, and one lemma for each parser of the grammar.
-/

namespace DocStore

open DocStore.Parser

section Lookahead

variable {c c₂ : Cursor} {s : Surroundings}

/-- What stands ahead in surroundings: the same, then what comes after. -/
theorem Cursor.getElem?_within (hc : c₂.ahead = c.ahead.within s) (n : Nat) :
    (c₂.rest[n]?).map Token.lexeme
      = if n < c.rest.length then (c.rest[n]?).map Token.lexeme else s.tail[n - c.rest.length]? := by
  have hlexemes : c₂.rest.map Token.lexeme = c.rest.map Token.lexeme ++ s.tail :=
    congrArg Ahead.lexemes hc
  rw [← List.getElem?_map, hlexemes, ← List.getElem?_map]
  split
  · next h => rw [List.getElem?_append_left (by rwa [List.length_map])]
  · next h => rw [List.getElem?_append_right (by rw [List.length_map]; omega), List.length_map]

theorem Cursor.kindAt_eq_elim (c : Cursor) (n : Nat) :
    c.kindAt n = ((c.rest[n]?).map Token.lexeme).elim .eof Lexeme.kind := by
  rw [kindAt]
  cases c.rest[n]? <;> rfl

theorem Cursor.isWordAt_eq_elim (c : Cursor) (n : Nat) (word : String) :
    c.isWordAt n word = ((c.rest[n]?).map Token.lexeme).elim false (·.token.isWord word) := by
  rw [isWordAt]
  cases c.rest[n]? <;> rfl

theorem Cursor.rest_ne_nil {kind : TokenKind} (h : c.kindAt 0 = kind) (hkind : kind ≠ .eof) :
    c.rest ≠ [] := by
  intro hnil
  rw [kindAt, hnil] at h
  exact hkind h.symm

theorem Cursor.kindAt_of_length_le {n : Nat} (h : c.rest.length ≤ n) : c.kindAt n = .eof := by
  rw [kindAt, List.getElem?_eq_none h]

/-- A token of some kind has its place before the end. -/
theorem Cursor.lt_length {kind : TokenKind} {n : Nat} (h : c.kindAt n = kind) (hkind : kind ≠ .eof) :
    n < c.rest.length := by
  by_contra hnot
  rw [kindAt_of_length_le (Nat.le_of_not_lt hnot)] at h
  exact hkind h.symm

theorem Cursor.kindAt_within (hc : c₂.ahead = c.ahead.within s) {n : Nat}
    (h : n < c.rest.length) : c₂.kindAt n = c.kindAt n := by
  rw [kindAt_eq_elim, getElem?_within hc, if_pos h, kindAt_eq_elim]

/-- At the end of the text the tail is next. -/
theorem Cursor.kindAt_length (hc : c₂.ahead = c.ahead.within s) :
    c₂.kindAt c.rest.length = Ahead.kindAt ⟨s.tail, []⟩ 0 := by
  rw [kindAt_eq_elim, getElem?_within hc, if_neg (Nat.lt_irrefl _), Nat.sub_self]
  cases s.tail <;> rfl

/-- Up to the end of the text, one sees what is no end as one does without the surroundings. -/
theorem Cursor.kindAt_beq_within (hc : c₂.ahead = c.ahead.within s) {kind : TokenKind}
    (hkind : kind.isEnd = false) {n : Nat} (hn : n ≤ c.rest.length) :
    (c₂.kindAt n == kind) = (c.kindAt n == kind) := by
  rcases Nat.lt_or_eq_of_le hn with h | rfl
  · rw [kindAt_within hc h]
  · have hne : ∀ end_ : TokenKind, end_.isEnd = true → (end_ == kind) = false := by
      intro end_ hend
      rw [beq_eq_false_iff_ne]
      rintro rfl
      rw [hkind] at hend
      cases hend
    rw [kindAt_length hc, kindAt_of_length_le (Nat.le_refl _)]
    exact (hne _ s.isEnd_tail).trans (hne _ rfl).symm

theorem Cursor.isWordAt_within (hc : c₂.ahead = c.ahead.within s) {n : Nat}
    (hn : n ≤ c.rest.length) {word : String} (hword : word ∉ clauseWords) :
    c₂.isWordAt n word = c.isWordAt n word := by
  rw [isWordAt_eq_elim, getElem?_within hc, isWordAt_eq_elim]
  split
  · rfl
  · next h =>
      have hend : n = c.rest.length := Nat.le_antisymm hn (Nat.le_of_not_lt h)
      have htail : Ahead.isWordAt ⟨s.tail, []⟩ 0 word = false := s.isWordAt_tail hword
      rw [hend, Nat.sub_self, List.getElem?_eq_none (Nat.le_refl _)]
      cases htails : s.tail with
      | nil => rfl
      | cons l more =>
          rw [htails] at htail
          exact htail

end Lookahead

/-- From here, the parser gives nothing. -/
def FailsAt {α : Type} (c : Cursor) (p : Parser α) : Prop := ∀ result, p c ≠ .ok result

/-- What `p` gives from here, `q` gives in the surroundings.  To give `a`, `p` takes `used a` tokens at
least. -/
def EmbedsAt {α : Type} (s : Surroundings) (c : Cursor) (used : α → Nat) (p q : Parser α) : Prop :=
  ∀ a c', p c = .ok (a, c') → c'.rest.length + used a ≤ c.rest.length ∧ c.names <+: c'.names
    ∧ (s.Agrees c'.names → Parses q (c.ahead.within s) a (c'.ahead.within s))

/-- Wherever it stands, what `p` gives is what `q` gives in the surroundings. -/
def Embeds {α : Type} (s : Surroundings) (used : α → Nat) (p q : Parser α) : Prop :=
  ∀ c, EmbedsAt s c used p q

/-- At the end of the text, the surroundings would go on with a list. -/
def Surroundings.GoesOn (s : Surroundings) (c : Cursor) : Prop :=
  c.rest = [] ∧ Ahead.kindAt ⟨s.tail, []⟩ 0 = .comma

/-- As `EmbedsAt`, unless the surroundings go on with the list that is read. -/
def EmbedsList {α : Type} (s : Surroundings) (c : Cursor) (used : α → Nat) (p q : Parser α) : Prop :=
  ∀ a c', p c = .ok (a, c') → c'.rest.length + used a ≤ c.rest.length ∧ c.names <+: c'.names
    ∧ (¬ s.GoesOn c' → s.Agrees c'.names → Parses q (c.ahead.within s) a (c'.ahead.within s))

variable {α β : Type} {p q : Parser α} {f g : α → Parser β} {used m : α → Nat} {k : β → Nat}
  {s : Surroundings} {c : Cursor} {a : α}

/-! ## Parsers that give nothing -/

namespace FailsAt

theorem throw (e : ParseError) : FailsAt c (throw e : Parser α) := nofun

theorem bind (h : FailsAt c p) : FailsAt c (p >>= f) := by
  intro result heq
  obtain ⟨a, c', hp, -⟩ := bind_eq_ok.mp heq
  exact h _ hp

theorem failHere (error : Nat → ParseError) : FailsAt c (Parser.failHere error : Parser α) := nofun

theorem unexpected : FailsAt c (Parser.unexpected : Parser α) := by
  intro result heq
  obtain ⟨token?, c', -, hfail⟩ := bind_eq_ok.mp heq
  cases token? with
  | none => exact failHere _ _ hfail
  | some token => exact failHere _ _ hfail

theorem embeds (h : FailsAt c p) : EmbedsAt s c used p q := fun _ _ heq => absurd heq (h _)

end FailsAt

/-! ## Building parsers -/

namespace EmbedsAt

theorem pure (h : used a = 0) : EmbedsAt s c used (Pure.pure a) (Pure.pure a) := by
  intro a' c' heq
  cases heq
  exact ⟨Nat.le_of_eq (by rw [h, Nat.add_zero]), List.prefix_rfl, fun _ => Parses.pure a⟩

/-- What is used by the one does not have to be used by the other. -/
theorem bind (hp : EmbedsAt s c m p q)
    (hf : ∀ a c', c'.rest.length + m a ≤ c.rest.length →
      EmbedsAt s c' (fun b => k b - m a) (f a) (g a)) :
    EmbedsAt s c k (p >>= f) (q >>= g) := by
  intro b c'' heq
  obtain ⟨a, c', hfirst, hrest⟩ := bind_eq_ok.mp heq
  obtain ⟨hlength, hnames, hq⟩ := hp a c' hfirst
  obtain ⟨hlength', hnames', hg⟩ := hf a c' hlength b c'' hrest
  have hlength' : c''.rest.length + (k b - m a) ≤ c'.rest.length := hlength'
  exact ⟨by omega, hnames.trans hnames',
    fun hagrees => (hq (hagrees.earlier hnames')).bind (hg hagrees)⟩

theorem mono {fewer : α → Nat} (h : EmbedsAt s c used p q) (hle : ∀ a, fewer a ≤ used a) :
    EmbedsAt s c fewer p q := by
  intro a c' heq
  obtain ⟨hlength, hrest⟩ := h a c' heq
  exact ⟨by have := hle a; omega, hrest⟩

theorem ite {condition : Prop} [Decidable condition] {p' q' : Parser α}
    (hp : condition → EmbedsAt s c used p q) (hq : ¬condition → EmbedsAt s c used p' q') :
    EmbedsAt s c used (if condition then p else p') (if condition then q else q') := by
  split
  · next h => exact hp h
  · next h => exact hq h

/-- More tokens than there are cannot be taken. -/
theorem failsAt (h : EmbedsAt s c used p q) (hused : ∀ a, c.rest.length < used a) : FailsAt c p := by
  rintro ⟨a, c'⟩ heq
  obtain ⟨hlength, -⟩ := h a c' heq
  have := hused a
  omega

/-- A parser that takes a token gives nothing at the end of the source. -/
theorem failsAt_of_nil (h : EmbedsAt s c (fun _ => 1) p q) (hc : c.rest = []) : FailsAt c p :=
  h.failsAt fun _ => by rw [hc]; exact Nat.one_pos

theorem advance (h : c.rest ≠ []) : EmbedsAt s c (fun _ => 1) Parser.advance Parser.advance := by
  obtain ⟨rest, position, names⟩ := c
  cases rest with
  | nil => exact absurd rfl h
  | cons token rest =>
      intro _ c' heq
      cases heq
      exact ⟨Nat.le_refl _, List.prefix_rfl, fun _ => Parses.advance⟩

/-- A test of what is ahead, which has the same outcome in the surroundings. -/
theorem ifAhead {test : Cursor → Prop} [DecidablePred test] {p' q' : Parser α}
    (htest : ∀ c₂, c₂.ahead = c.ahead.within s → (test c₂ ↔ test c))
    (hp : test c → EmbedsAt s c used p q) (hq : ¬test c → EmbedsAt s c used p' q') :
    EmbedsAt s c used (get >>= fun c => if test c then p else p')
      (get >>= fun c => if test c then q else q') := by
  have hget : (get >>= fun c => if test c then p else p' : Parser α) c
      = (if test c then p else p') c := rfl
  intro a c' heq
  rw [hget] at heq
  by_cases h : test c
  · rw [if_pos h] at heq
    obtain ⟨hlength, hnames, hread⟩ := hp h a c' heq
    refine ⟨hlength, hnames, fun hagrees => Parses.get_bind fun c₂ hc₂ => ?_⟩
    rw [if_pos ((htest c₂ hc₂).mpr h)]
    exact hread hagrees
  · rw [if_neg h] at heq
    obtain ⟨hlength, hnames, hread⟩ := hq h a c' heq
    refine ⟨hlength, hnames, fun hagrees => Parses.get_bind fun c₂ hc₂ => ?_⟩
    rw [if_neg (mt (htest c₂ hc₂).mp h)]
    exact hread hagrees

/-- What is next, if anything is, is next in the surroundings as well, and that is all a parser sees of it;
where nothing is, the tail of the surroundings is next. -/
theorem peek?_bind {f g : Option Token → Parser β}
    (hsome : ∀ kind text start stop start' stop', c.rest ≠ [] →
      EmbedsAt s c k (f (some ⟨kind, start, stop, text⟩)) (g (some ⟨kind, start', stop', text⟩)))
    (hnone : c.rest = [] → ∀ token? : Option Token, (∀ token ∈ token?, token.lexeme.Delimits) →
      EmbedsAt s c k (f none) (g token?)) :
    EmbedsAt s c k (Parser.peek? >>= f) (Parser.peek? >>= g) := by
  intro b c' heq
  have heq : f c.rest.head? c = .ok (b, c') := heq
  obtain ⟨rest, position, names⟩ := c
  cases rest with
  | nil =>
      obtain ⟨hlength, hnames, -⟩ := hnone rfl none nofun b c' heq
      refine ⟨hlength, hnames, fun hagrees => ?_⟩
      obtain ⟨tail, known, hdelimits⟩ := s
      cases tail with
      | nil => exact Parses.peek?_bind_nil ((hnone rfl none nofun b c' heq).2.2 hagrees)
      | cons l more =>
          refine Parses.peek?_bind fun token hkind htext => ?_
          refine (hnone rfl (some token) ?_ b c' heq).2.2 hagrees
          intro _ htoken
          cases htoken
          rw [Token.lexeme, hkind, htext]
          exact hdelimits l rfl
  | cons token rest =>
      obtain ⟨kind, start, stop, text⟩ := token
      have hboth := fun start' stop' =>
        hsome kind text start stop start' stop' (List.cons_ne_nil _ _) b c' heq
      obtain ⟨hlength, hnames, -⟩ := hboth start stop
      refine ⟨hlength, hnames, fun hagrees => Parses.peek?_bind fun token hkind htext => ?_⟩
      obtain ⟨kind', start', stop', text'⟩ := token
      subst hkind htext
      exact (hboth start' stop').2.2 hagrees

/-- A parser that has to have a token and looks at its kind. -/
theorem kind_bind {f g : TokenKind → Parser β}
    (hsome : c.rest ≠ [] → EmbedsAt s c k (f (c.kindAt 0)) (g (c.kindAt 0)))
    (hnone : c.rest = [] → FailsAt c (f .eof)) :
    EmbedsAt s c k (Parser.peek >>= f) (Parser.peek >>= g) := by
  intro b c' heq
  have heq : f (c.kindAt 0) c = .ok (b, c') := heq
  by_cases h : c.rest = []
  · have hkind : c.kindAt 0 = .eof := by rw [Cursor.kindAt, h]; rfl
    rw [hkind] at heq
    exact absurd heq (hnone h _)
  · obtain ⟨hlength, hnames, hg⟩ := hsome h b c' heq
    refine ⟨hlength, hnames, fun hagrees => Parses.get_bind fun c₂ hc₂ => ?_⟩
    rw [Cursor.kindAt_within hc₂ (List.length_pos_iff.mpr h)]
    exact hg hagrees

/-- The loops of the two parsers may have different bounds. -/
theorem remaining_bind {f g : Nat → Parser β}
    (h : ∀ n, c.rest.length ≤ n → EmbedsAt s c k (f c.rest.length) (g n)) :
    EmbedsAt s c k (Parser.remaining >>= f) (Parser.remaining >>= g) := by
  intro b c' heq
  obtain ⟨hlength, hnames, -⟩ := h _ (Nat.le_refl _) b c' heq
  refine ⟨hlength, hnames, fun hagrees => Parses.remaining.bind ?_⟩
  refine (h _ ?_ b c' heq).2.2 hagrees
  simp [Ahead.within, Cursor.ahead]

/-- Where the one has stopped at the end of the source, the other has to stop at the tail. -/
theorem pure_of_nil (hc : c.rest = []) (hused : used a = 0)
    (hq : ∀ names, Parses q ⟨s.tail, names⟩ a ⟨s.tail, names⟩) :
    EmbedsAt s c used (Pure.pure a) q := by
  obtain ⟨rest, position, names⟩ := c
  cases hc
  intro a' c' heq
  cases heq
  exact ⟨Nat.le_of_eq (by rw [hused, Nat.add_zero]), List.prefix_rfl, fun _ => hq _⟩

/-- A token is passed in the surroundings as it is alone, if there is one. -/
theorem accept {kind : TokenKind} (hc : c.rest ≠ []) (hkind : kind ≠ .eof) :
    EmbedsAt s c Bool.toNat (Parser.accept kind) (Parser.accept kind) := by
  have haccept : Parser.accept kind = (get >>= fun c => if c.kindAt 0 = kind then
      Parser.advance >>= fun _ => Pure.pure true else Pure.pure false) := rfl
  rw [haccept]
  refine EmbedsAt.ifAhead (fun c₂ hc₂ => ?_) (fun hnext => ?_) fun _ => .pure rfl
  · rw [Cursor.kindAt_within hc₂ (List.length_pos_iff.mpr hc)]
  · exact (EmbedsAt.advance (Cursor.rest_ne_nil hnext hkind)).bind fun _ _ _ => .pure rfl

end EmbedsAt

/-! ## Lists with an open end -/

namespace EmbedsList

theorem of_embedsAt (h : EmbedsAt s c used p q) : EmbedsList s c used p q := by
  intro a c' heq
  obtain ⟨hlength, hnames, hread⟩ := h a c' heq
  exact ⟨hlength, hnames, fun _ => hread⟩

theorem bind (hp : EmbedsAt s c m p q)
    (hf : ∀ a c', c'.rest.length + m a ≤ c.rest.length →
      EmbedsList s c' (fun b => k b - m a) (f a) (g a)) :
    EmbedsList s c k (p >>= f) (q >>= g) := by
  intro b c'' heq
  obtain ⟨a, c', hfirst, hrest⟩ := bind_eq_ok.mp heq
  obtain ⟨hlength, hnames, hq⟩ := hp a c' hfirst
  obtain ⟨hlength', hnames', hg⟩ := hf a c' hlength b c'' hrest
  have hlength' : c''.rest.length + (k b - m a) ≤ c'.rest.length := hlength'
  exact ⟨by omega, hnames.trans hnames',
    fun hgoes hagrees => (hq (hagrees.earlier hnames')).bind (hg hgoes hagrees)⟩

theorem map {h : α → β} (hp : EmbedsList s c m p q) (hk : ∀ a, k (h a) ≤ m a) :
    EmbedsList s c k (p >>= fun a => Pure.pure (h a)) (q >>= fun a => Pure.pure (h a)) := by
  intro b c' heq
  obtain ⟨a, c₁, hfirst, hrest⟩ := bind_eq_ok.mp heq
  cases hrest
  obtain ⟨hlength, hnames, hq⟩ := hp a c' hfirst
  have hused := hk a
  exact ⟨by omega, hnames, fun hgoes hagrees => (hq hgoes hagrees).bind (Parses.pure _)⟩

theorem remaining_bind {f g : Nat → Parser β}
    (h : ∀ n, c.rest.length ≤ n → EmbedsList s c k (f c.rest.length) (g n)) :
    EmbedsList s c k (Parser.remaining >>= f) (Parser.remaining >>= g) := by
  intro b c' heq
  obtain ⟨hlength, hnames, -⟩ := h _ (Nat.le_refl _) b c' heq
  refine ⟨hlength, hnames, fun hgoes hagrees => Parses.remaining.bind ?_⟩
  refine (h _ ?_ b c' heq).2.2 hgoes hagrees
  simp [Ahead.within, Cursor.ahead]

theorem failsAt_of_nil (h : EmbedsList s c (fun _ => 1) p q) (hc : c.rest = []) : FailsAt c p := by
  rintro ⟨a, c'⟩ heq
  obtain ⟨hlength, -⟩ := h a c' heq
  rw [hc] at hlength
  exact absurd hlength (Nat.not_succ_le_zero _)

/-- A list that has to be closed does not end with the text. -/
theorem close (hp : EmbedsList s c m p q)
    (hf : ∀ a c', EmbedsAt s c' (fun b => k b - m a) (f a) (g a))
    (hnil : ∀ a c', c'.rest = [] → FailsAt c' (f a)) : EmbedsAt s c k (p >>= f) (q >>= g) := by
  intro b c'' heq
  obtain ⟨a, c', hfirst, hrest⟩ := bind_eq_ok.mp heq
  obtain ⟨hlength, hnames, hq⟩ := hp a c' hfirst
  obtain ⟨hlength', hnames', hg⟩ := hf a c' b c'' hrest
  have hlength' : c''.rest.length + (k b - m a) ≤ c'.rest.length := hlength'
  have hgoes : ¬ s.GoesOn c' := fun hgoes => hnil a c' hgoes.1 _ hrest
  exact ⟨by omega, hnames.trans hnames',
    fun hagrees => (hq hgoes (hagrees.earlier hnames')).bind (hg hagrees)⟩

end EmbedsList

namespace Embeds

theorem pure (h : used a = 0) : Embeds s used (Pure.pure a) (Pure.pure a) := fun _ => .pure h

theorem bind (hp : Embeds s m p q) (hf : ∀ a, Embeds s (fun b => k b - m a) (f a) (g a)) :
    Embeds s k (p >>= f) (q >>= g) := fun c => (hp c).bind fun a c' _ => hf a c'

theorem mono {fewer : α → Nat} (h : Embeds s used p q) (hle : ∀ a, fewer a ≤ used a) :
    Embeds s fewer p q := fun c => (h c).mono hle

theorem map {used : β → Nat} (f : α → β) (hp : Embeds s (fun a => used (f a)) p q) :
    Embeds s used (f <$> p) (f <$> q) := by
  rw [map_eq_pure_bind, map_eq_pure_bind]
  exact hp.bind fun a => pure (Nat.sub_self _)

theorem ite {condition : Prop} [Decidable condition] {p' q' : Parser α}
    (hp : condition → Embeds s used p q) (hq : ¬condition → Embeds s used p' q') :
    Embeds s used (if condition then p else p') (if condition then q else q') :=
  fun c => .ite (fun h => hp h c) fun h => hq h c

theorem unexpected : Embeds s used (Parser.unexpected : Parser α) q :=
  fun _ => FailsAt.unexpected.embeds

/-! ### Looking ahead and moving forward -/

theorem position_bind {f g : Nat → Parser β} (h : ∀ n n', Embeds s k (f n) (g n')) :
    Embeds s k (Parser.position >>= f) (Parser.position >>= g) := by
  intro c b c' heq
  have hboth := fun n' => h c.position n' c b c' heq
  obtain ⟨hlength, hnames, -⟩ := hboth 0
  exact ⟨hlength, hnames, fun hagrees => Parses.position_bind fun n' => (hboth n').2.2 hagrees⟩

/-- A parser that has to have a token. -/
theorem token_bind {f g : Option Token → Parser β}
    (hsome : ∀ kind text start stop start' stop', ∀ c : Cursor, c.rest ≠ [] →
      EmbedsAt s c k (f (some ⟨kind, start, stop, text⟩)) (g (some ⟨kind, start', stop', text⟩)))
    (hnone : ∀ c : Cursor, c.rest = [] → FailsAt c (f none)) :
    Embeds s k (Parser.peek? >>= f) (Parser.peek? >>= g) := fun c =>
  .peek?_bind (fun kind text start stop start' stop' => hsome kind text start stop start' stop' c)
    fun h _ _ => (hnone c h).embeds

theorem accept {kind : TokenKind} (hkind : kind.isEnd = false) :
    Embeds s Bool.toNat (Parser.accept kind) (Parser.accept kind) := by
  have haccept : Parser.accept kind = (get >>= fun c => if c.kindAt 0 = kind then
      Parser.advance >>= fun _ => Pure.pure true else Pure.pure false) := rfl
  intro c
  rw [haccept]
  refine EmbedsAt.ifAhead (fun c₂ hc₂ => ?_) (fun hnext => ?_) fun _ => .pure rfl
  · rw [← beq_iff_eq, Cursor.kindAt_beq_within hc₂ hkind (Nat.zero_le _), beq_iff_eq]
  · refine (EmbedsAt.advance (Cursor.rest_ne_nil hnext ?_)).bind fun _ _ _ => .pure rfl
    rintro rfl
    cases hkind

theorem acceptWord {word : String} (hword : word ∉ clauseWords) :
    Embeds s Bool.toNat (Parser.acceptWord word) (Parser.acceptWord word) := by
  intro c
  refine EmbedsAt.ifAhead (fun c₂ hc₂ => ?_) (fun hnext => ?_) fun _ => .pure rfl
  · rw [Cursor.isWordAt_within hc₂ (Nat.zero_le _) hword]
  · refine (EmbedsAt.advance fun hnil => ?_).bind fun _ _ _ => .pure rfl
    rw [Cursor.isWordAt, hnil] at hnext
    cases hnext

theorem ifAccept {kind : TokenKind} {p' q' : Parser α} (hkind : kind.isEnd = false)
    (hp : Embeds s (fun a => used a - 1) p q) (hq : Embeds s used p' q') :
    Embeds s used (Parser.accept kind >>= fun found => if found = true then p else p')
      (Parser.accept kind >>= fun found => if found = true then q else q') := by
  refine (accept hkind).bind fun found => ?_
  cases found with
  | true => exact hp
  | false => exact hq

theorem ifWord {word : String} {p' q' : Parser α} (hword : word ∉ clauseWords)
    (hp : Embeds s (fun a => used a - 1) p q) (hq : Embeds s used p' q') :
    Embeds s used (Parser.acceptWord word >>= fun found => if found = true then p else p')
      (Parser.acceptWord word >>= fun found => if found = true then q else q') := by
  refine (acceptWord hword).bind fun found => ?_
  cases found with
  | true => exact hp
  | false => exact hq

theorem failsAt_require (what : String) : FailsAt c (Parser.require false what) := by
  intro result heq
  obtain ⟨token?, c', -, hfail⟩ := bind_eq_ok.mp heq
  cases token? with
  | none => exact FailsAt.failHere _ _ hfail
  | some token => exact FailsAt.failHere _ _ hfail

/-- A token that has to be there is there before the tail. -/
theorem expect {kind : TokenKind} (hkind : kind ≠ .eof) (what : String) :
    Embeds s (fun _ => 1) (Parser.expect kind what) (Parser.expect kind what) := by
  have hexpect : Parser.expect kind what = (Parser.peek >>= fun next => if next = kind then
      Parser.advance else Parser.require false what) := by
    funext c
    show ((if c.kindAt 0 = kind then Parser.advance >>= fun _ => Pure.pure true
      else Pure.pure false : Parser Bool) >>= fun found => Parser.require found what) c
        = (if c.kindAt 0 = kind then Parser.advance else Parser.require false what) c
    split <;> rfl
  rw [hexpect]
  refine fun c => .kind_bind (fun hc => .ite (fun _ => .advance hc) fun _ => ?_) fun _ => ?_
  · exact (failsAt_require what).embeds
  · rw [if_neg hkind.symm]
    exact failsAt_require what

theorem expectWord {word : String} (hword : word ∉ clauseWords) :
    Embeds s (fun _ => 1) (Parser.expectWord word) (Parser.expectWord word) := by
  refine (acceptWord hword).bind fun found => ?_
  cases found with
  | true => exact pure rfl
  | false => exact fun _ => (failsAt_require _).embeds

/-- A token that has to be there is not there at the end. -/
theorem failsAt_expect {kind : TokenKind} (hkind : kind ≠ .eof) (what : String)
    (hc : c.rest = []) : FailsAt c (Parser.expect kind what) :=
  (expect (s := ⟨[], [], nofun⟩) hkind what c).failsAt_of_nil hc

/-! ### Lists -/

/-- At the end of the text no further element comes, and in the surroundings none does but after a comma. -/
theorem further_nil {bound bound' : Nat} (hc : c.rest = []) :
    EmbedsList s c (fun _ => 0) (commaSeparated.further p bound)
      (commaSeparated.further q bound') := by
  intro items c' heq
  have hend : items = [] ∧ c' = c := by
    cases bound with
    | zero =>
        cases heq
        exact ⟨rfl, rfl⟩
    | succ bound =>
        have hkind : c.kindAt 0 = .eof := Cursor.kindAt_of_length_le (by rw [hc]; exact Nat.le_refl 0)
        have hnext : Parser.accept .comma c = .ok (false, c) := by
          show (if c.kindAt 0 = .comma then Parser.advance >>= fun _ => Pure.pure true
            else Pure.pure false : Parser Bool) c = _
          rw [hkind]
          rfl
        obtain ⟨found, c₁, hfound, hrest⟩ := bind_eq_ok.mp heq
        cases hnext.symm.trans hfound
        cases hrest
        exact ⟨rfl, rfl⟩
  obtain ⟨rfl, rfl⟩ := hend
  refine ⟨Nat.le_refl _, List.prefix_rfl, fun hgoes _ => ?_⟩
  have hahead : c'.ahead.within s = ⟨s.tail, s.merge c'.names⟩ := by
    rw [Ahead.within, Cursor.ahead, hc]
    rfl
  have hcomma : Ahead.kindAt ⟨s.tail, s.merge c'.names⟩ 0 ≠ .comma := fun h => hgoes ⟨hc, h⟩
  rw [hahead]
  cases bound' with
  | zero => exact Parses.pure _
  | succ bound' => exact Parses.bind_false (Parses.accept_false hcomma) (Parses.pure _)

theorem further {c : Cursor} {bound bound' : Nat}
    (hp : ∀ c' : Cursor, c'.rest.length ≤ c.rest.length → EmbedsAt s c' (fun _ => 1) p q)
    (hbound : c.rest.length ≤ bound) (hle : bound ≤ bound') :
    EmbedsList s c (fun _ => 0) (commaSeparated.further p bound)
      (commaSeparated.further q bound') := by
  induction bound generalizing c bound' with
  | zero => exact further_nil (List.length_eq_zero_iff.mp (Nat.le_zero.mp hbound))
  | succ bound ih =>
      by_cases hc : c.rest = []
      · exact further_nil hc
      obtain ⟨bound', rfl⟩ := Nat.exists_eq_succ_of_ne_zero (Nat.ne_zero_of_lt hle)
      refine .bind (EmbedsAt.accept hc (by decide)) fun found c₁ hc₁ => ?_
      cases found with
      | false => exact .of_embedsAt (.pure rfl)
      | true =>
          refine .bind (hp c₁ (Nat.le_of_add_right_le hc₁)) fun item c₂ hc₂ => ?_
          -- The comma is one token less ahead, so what is left of the bound is enough.
          have hless : c₁.rest.length + 1 ≤ c.rest.length := hc₁
          refine (ih (fun c' hc' => hp c' ?_) ?_ (Nat.le_of_succ_le_succ hle)).map fun _ => ?_
          · omega
          · omega
          · exact Nat.le_refl 0

theorem commaSeparated {c : Cursor}
    (hp : ∀ c' : Cursor, c'.rest.length ≤ c.rest.length → EmbedsAt s c' (fun _ => 1) p q) :
    EmbedsList s c (fun _ => 1) (Parser.commaSeparated p) (Parser.commaSeparated q) := by
  refine .bind (hp c (Nat.le_refl _)) fun first c₁ hc₁ => .remaining_bind fun n hn => ?_
  exact (further (fun c' hc' => hp c' (by omega)) (Nat.le_refl _) hn).map fun _ => Nat.le_refl _

/-! ### Names -/

theorem memberName : Embeds s (fun _ => 1) Parser.memberName Parser.memberName := by
  refine token_bind (fun kind text _ _ _ _ c hc => ?_) fun c _ => FailsAt.unexpected
  cases kind with
  | identifier => exact (EmbedsAt.advance hc).bind fun _ _ _ => .pure rfl
  | quotedIdentifier => exact (EmbedsAt.advance hc).bind fun _ _ _ => .pure rfl
  | _ => exact FailsAt.unexpected.embeds

/-- The number of a placeholder is the one thing that depends on what has been met before. -/
theorem placeOf (name : String) :
    Embeds s (fun _ => 0) (Parser.placeOf name) (Parser.placeOf name) := by
  intro c place c' heq
  obtain ⟨c₁, hplace, hc₁⟩ := Parses.placeOf name c rfl
  cases heq.symm.trans hplace
  have hlexemes : c'.rest.map Token.lexeme = c.rest.map Token.lexeme := congrArg Ahead.lexemes hc₁
  have hnames : c'.names = meet c.names name := congrArg Ahead.names hc₁
  have hlength := congrArg List.length hlexemes
  rw [List.length_map, List.length_map] at hlength
  refine ⟨Nat.le_of_eq hlength, ?_, fun hagrees => ?_⟩
  · rw [hnames]
    exact prefix_namesAfter c.names [.placeholder name 0]
  · have hread : Parses (Parser.placeOf name) ⟨c.rest.map Token.lexeme ++ s.tail, s.merge c.names⟩ _ _ :=
      Parses.placeOf name
    rw [hnames] at hagrees
    rw [Surroundings.meet_merge, hagrees name mem_meet] at hread
    rw [hc₁]
    exact hread

theorem placeholder : Embeds s (fun _ => 1) Parser.placeholder Parser.placeholder := by
  refine token_bind (fun kind text _ _ _ _ c hc => ?_) fun c _ => FailsAt.failHere _
  have hname : ∀ name, EmbedsAt s c (fun _ => 1)
      (Parser.advance >>= fun _ => Parser.placeOf name >>= fun place =>
        Pure.pure (Expr.placeholder name place))
      (Parser.advance >>= fun _ => Parser.placeOf name >>= fun place =>
        Pure.pure (Expr.placeholder name place)) := fun name =>
    (EmbedsAt.advance hc).bind fun _ c' _ => (placeOf name c').bind fun _ _ _ => .pure rfl
  cases kind with
  | identifier => exact hname _
  | integer => exact hname _
  | keyword => exact hname _
  | quotedIdentifier => exact hname _
  | _ => exact (FailsAt.failHere _).embeds

/-! ### Paths -/

theorem memberStep : Embeds s (fun _ => 0) Parser.memberStep Parser.memberStep := by
  refine token_bind (fun kind text _ _ _ _ c hc => ?_) fun c _ => FailsAt.failHere _
  cases kind with
  | identifier => exact (EmbedsAt.advance hc).bind fun _ _ _ => .pure rfl
  | keyword => exact (EmbedsAt.advance hc).bind fun _ _ _ => .pure rfl
  | quotedIdentifier => exact (EmbedsAt.advance hc).bind fun _ _ _ => .pure rfl
  | stringLiteral => exact (EmbedsAt.advance hc).bind fun _ _ _ => .pure rfl
  | _ => exact (FailsAt.failHere _).embeds

theorem indexStep : Embeds s (fun _ => 0) Parser.indexStep Parser.indexStep := by
  refine token_bind (fun kind text _ _ _ _ c hc => ?_) fun c _ => FailsAt.failHere _
  have hstep : ∀ step : Segment, EmbedsAt s c (fun _ => 0)
      (Parser.advance >>= fun _ => Parser.expect .rightBracket "]" >>= fun _ => Pure.pure step)
      (Parser.advance >>= fun _ => Parser.expect .rightBracket "]" >>= fun _ => Pure.pure step) :=
    fun step => (EmbedsAt.advance hc).bind fun _ c' _ =>
      (expect (by decide) _ c').bind fun _ _ _ => .pure rfl
  cases kind with
  | star => exact hstep _
  | integer =>
      dsimp only
      cases Decimal.naturalBelow? UInt32.size text.toList with
      | some n => exact hstep _
      | none => exact (FailsAt.failHere _).bind.embeds
  | _ => exact (FailsAt.failHere _).bind.embeds

/-- The number of steps that have been read. -/
theorem pathStep? : Embeds s (fun step? => step?.isSome.toNat) Parser.pathStep? Parser.pathStep? := by
  refine ifAccept rfl ?_ <| ifAccept rfl ?_ <| ifAccept rfl ?_ <| ifAccept rfl ?_ <| pure rfl
  · exact memberStep.bind fun _ => pure rfl
  · exact pure rfl
  · exact pure rfl
  · exact indexStep.bind fun _ => pure rfl

theorem pathSteps {c : Cursor} {bound bound' : Nat} (hbound : c.rest.length ≤ bound)
    (hle : bound ≤ bound') :
    EmbedsAt s c (fun _ => 0) (Parser.pathSteps bound) (Parser.pathSteps bound') := by
  induction bound generalizing c bound' with
  | zero =>
      refine EmbedsAt.pure_of_nil (List.length_eq_zero_iff.mp (Nat.le_zero.mp hbound)) rfl ?_
      intro names
      cases bound' with
      | zero => exact Parses.pure _
      | succ bound' => exact (Parses.pathStep?_none s.endsPath_tail).bind (Parses.pure _)
  | succ bound ih =>
      obtain ⟨bound', rfl⟩ := Nat.exists_eq_succ_of_ne_zero (Nat.ne_zero_of_lt hle)
      refine (pathStep? c).bind fun step? c₁ hc₁ => ?_
      cases step? with
      | none => exact .pure rfl
      | some step =>
          have hless : c₁.rest.length + 1 ≤ c.rest.length := hc₁
          refine (ih ?_ (Nat.le_of_succ_le_succ hle)).bind fun _ _ _ => .pure rfl
          omega

theorem pathFrom (start : List Segment) :
    Embeds s (fun _ => 0) (Parser.pathFrom start) (Parser.pathFrom start) := by
  intro c
  refine EmbedsAt.remaining_bind fun n hn => (pathSteps (Nat.le_refl _) hn).bind ?_
  intro steps c₁ _
  exact .ite (fun _ => (FailsAt.failHere _).bind.embeds) fun _ => .pure rfl

/-! ### Operands -/

section Operand

variable {sub sub' : Sub} {target : Expr} {negated : Bool}

/-- Whether a list holds literals only does not depend on where it starts. -/
theorem requireLiterals (e : Expr) (start start' : Nat) :
    Embeds s (fun _ => 0) (Parser.requireLiterals e start) (Parser.requireLiterals e start') := by
  cases e with
  | array items =>
      rw [Parser.requireLiterals, Parser.requireLiterals]
      split
      · exact fun _ => (FailsAt.throw _).embeds
      · exact pure rfl
  | _ => exact pure rfl

theorem listUntil_at {kind : TokenKind} (hsub : Embeds s (fun _ => 1) (sub 0) (sub' 0))
    (hkind : kind ≠ .eof) (what : String) (c : Cursor) :
    EmbedsAt s c (fun _ => if c.kindAt 0 = kind then 1 else 2) (Parser.listUntil sub kind what)
      (Parser.listUntil sub' kind what) := by
  have hitems := commaSeparated (c := c) fun c' _ => hsub c'
  refine .kind_bind (fun hc => .ite (fun h => ?_) fun h => ?_) fun hc => ?_
  · rw [if_pos h]
    exact (expect hkind what c).bind fun _ _ _ => .pure rfl
  · rw [if_neg h]
    refine hitems.close (fun items c' => ?_) fun items c' hc' => (failsAt_expect hkind what hc').bind
    exact (expect hkind what c').bind fun _ _ _ => .pure rfl
  · rw [if_neg hkind.symm]
    exact (hitems.failsAt_of_nil hc).bind

theorem listUntil {kind : TokenKind} (hsub : Embeds s (fun _ => 1) (sub 0) (sub' 0))
    (hkind : kind ≠ .eof) (what : String) :
    Embeds s (fun _ => 1) (Parser.listUntil sub kind what) (Parser.listUntil sub' kind what) :=
  fun c => (listUntil_at hsub hkind what c).mono fun _ => by split <;> decide

theorem objectField (hsub : Embeds s (fun _ => 1) (sub 0) (sub' 0)) :
    Embeds s (fun _ => 1) (Parser.objectField sub) (Parser.objectField sub') := by
  refine token_bind (fun kind text _ _ _ _ c hc => ?_) fun c _ => FailsAt.unexpected
  have hkey : ∀ key : String, EmbedsAt s c (fun _ => 1)
      (Parser.advance >>= fun _ => Parser.expect .colon ":" >>= fun _ => sub 0 >>= fun e =>
        Pure.pure (key, e))
      (Parser.advance >>= fun _ => Parser.expect .colon ":" >>= fun _ => sub' 0 >>= fun e =>
        Pure.pure (key, e)) := fun key =>
    (EmbedsAt.advance hc).bind fun _ c' _ => (expect (by decide) _ c').bind fun _ c' _ =>
      (hsub c').bind fun _ _ _ => .pure rfl
  cases kind with
  | stringLiteral => exact hkey _
  | identifier => exact hkey _
  | quotedIdentifier => exact hkey _
  | _ => exact FailsAt.unexpected.embeds

theorem objectBody (hsub : Embeds s (fun _ => 1) (sub 0) (sub' 0)) :
    Embeds s (fun _ => 0) (Parser.objectBody sub) (Parser.objectBody sub') := by
  intro c
  have hfields := commaSeparated (c := c) fun c' _ => objectField hsub c'
  have hclose : ∀ fields, Embeds s (fun _ => 0)
      (Parser.expect .rightBrace "\x7d" >>= fun _ => Pure.pure (Expr.object fields))
      (Parser.expect .rightBrace "\x7d" >>= fun _ => Pure.pure (Expr.object fields)) :=
    fun fields => (expect (by decide) _).bind fun _ => pure rfl
  refine .kind_bind (fun hc => .ite (fun _ => hclose [] c) fun _ => ?_) fun hc => ?_
  · refine hfields.close (fun fields c' => (hclose fields c').mono fun _ => Nat.zero_le _) ?_
    exact fun fields c' hc' => (failsAt_expect (by decide) _ hc').bind
  · exact (hfields.failsAt_of_nil hc).bind

/-- A star before the end of the source is no argument; it would be one before a parenthesis. -/
theorem arguments (hsub : Embeds s (fun _ => 1) (sub 0) (sub' 0)) :
    Embeds s (fun _ => 1) (Parser.arguments sub) (Parser.arguments sub') := by
  intro c
  have hlist : EmbedsAt s c (fun _ => 1) (Parser.listUntil sub .rightParen ")")
      (Parser.listUntil sub' .rightParen ")") := listUntil hsub (by decide) _ c
  by_cases hlast : c.kindAt 0 = .star ∧ c.rest.length ≤ 1
  -- Taken as a list, the star would have to be an expression with a parenthesis after it.
  · refine FailsAt.embeds ?_
    have hpast : c.kindAt 1 = .eof := by rw [Cursor.kindAt, List.getElem?_eq_none hlast.2]
    have hskip : ¬(c.kindAt 0 = .star ∧ c.kindAt 1 = .rightParen) := by simp [hpast]
    have harguments : Parser.arguments sub c = Parser.listUntil sub .rightParen ")" c :=
      congrFun (if_neg hskip) c
    have hfails : FailsAt c (Parser.listUntil sub .rightParen ")") := by
      refine (listUntil_at hsub (by decide) _ c).failsAt fun _ => ?_
      rw [hlast.1, if_neg (by decide)]
      exact Nat.lt_succ_of_le hlast.2
    intro result heq
    exact hfails result (harguments.symm.trans heq)
  · refine .ifAhead (fun c₂ hc₂ => ?_) (fun h => ?_) fun _ => hlist
    · have hfirst : c₂.kindAt 0 = .star ↔ c.kindAt 0 = .star := by
        rw [← beq_iff_eq, Cursor.kindAt_beq_within hc₂ rfl (Nat.zero_le _), beq_iff_eq]
      rw [hfirst]
      refine and_congr_right fun hstar => ?_
      have hlength : 1 < c.rest.length := Nat.lt_of_not_le fun h => hlast ⟨hstar, h⟩
      rw [Cursor.kindAt_within hc₂ hlength]
    · refine (EmbedsAt.advance (Cursor.rest_ne_nil h.1 (by decide))).bind fun _ c' _ => ?_
      exact (expect (by decide) _ c').bind fun _ _ _ => .pure rfl

theorem call (hsub : Embeds s (fun _ => 1) (sub 0) (sub' 0)) :
    Embeds s (fun _ => 1) (Parser.call sub) (Parser.call sub') := by
  have hcall : ∀ name : FunctionName, Embeds s (fun _ => 0)
      (Parser.expect .leftParen "(" >>= fun _ => Parser.arguments sub >>= fun args =>
        Pure.pure (Expr.call name args))
      (Parser.expect .leftParen "(" >>= fun _ => Parser.arguments sub' >>= fun args =>
        Pure.pure (Expr.call name args)) := fun name =>
    (expect (by decide) _).bind fun _ => (arguments hsub).bind fun _ => pure rfl
  refine memberName.bind fun first => ifAccept rfl ?_ ?_
  · exact memberName.bind fun second => hcall ⟨some first, second⟩
  · exact hcall ⟨none, first⟩

/-- Whether a name starts a call is seen from the text alone: where the text ends after the name, or
after a point and a second name, there is no parenthesis. -/
theorem startsCall_iff {c₂ : Cursor} (hc : c₂.ahead = c.ahead.within s) (hne : c.rest ≠ []) :
    startsCall c₂ = true ↔ startsCall c = true := by
  have hkind : ∀ n kind, n ≤ c.rest.length → kind.isEnd = false →
      (c₂.kindAt n == kind) = (c.kindAt n == kind) :=
    fun n kind hn hkind => Cursor.kindAt_beq_within hc hkind hn
  have hfirst : 0 < c.rest.length := List.length_pos_iff.mpr hne
  rw [startsCall, startsCall, hkind 1 .leftParen hfirst rfl, hkind 1 .dot hfirst rfl]
  cases hdot : c.kindAt 1 == .dot with
  | false => simp only [Bool.false_and]
  | true =>
      have hsecond : 1 < c.rest.length := Cursor.lt_length (eq_of_beq hdot) (by decide)
      rw [hkind 2 .identifier hsecond rfl]
      cases hname : c.kindAt 2 == .identifier with
      | false => simp only [Bool.and_false, Bool.false_and]
      | true =>
          have hthird : 2 < c.rest.length := Cursor.lt_length (eq_of_beq hname) (by decide)
          rw [hkind 3 .leftParen hthird rfl]

theorem named (hsub : Embeds s (fun _ => 1) (sub 0) (sub' 0)) (hc : c.rest ≠ []) :
    EmbedsAt s c (fun _ => 1) (Parser.named sub) (Parser.named sub') := by
  refine .ifAhead (fun c₂ hc₂ => startsCall_iff hc₂ hc) (fun _ => call hsub c) fun _ => ?_
  refine (memberName c).bind fun name c' _ => (pathFrom _ c').bind fun _ _ _ => .pure rfl

theorem primary (hsub : Embeds s (fun _ => 1) (sub 0) (sub' 0)) :
    Embeds s (fun _ => 1) (Parser.primary sub) (Parser.primary sub') := by
  refine token_bind (fun kind text start stop start' stop' c hc => ?_) fun c _ => FailsAt.unexpected
  have hliteral : ∀ value : Value, EmbedsAt s c (fun _ => 1)
      (Parser.advance >>= fun _ => Pure.pure (Expr.literal value))
      (Parser.advance >>= fun _ => Pure.pure (Expr.literal value)) := fun value =>
    (EmbedsAt.advance hc).bind fun _ _ _ => .pure rfl
  cases kind with
  | integer => exact hliteral _
  | float => exact hliteral _
  | stringLiteral => exact hliteral _
  | keyword =>
      have hvalue : wordValue? ⟨.keyword, start', stop', text⟩
          = wordValue? ⟨.keyword, start, stop, text⟩ := rfl
      dsimp only
      rw [hvalue]
      cases wordValue? ⟨.keyword, start, stop, text⟩ with
      | none => exact FailsAt.unexpected.embeds
      | some value => exact hliteral value
  | colon => exact (EmbedsAt.advance hc).bind fun _ c' _ => (placeholder c').mono fun _ => Nat.zero_le _
  | leftParen =>
      refine (EmbedsAt.advance hc).bind fun _ c' _ => (hsub c').bind fun e c' _ => ?_
      exact (expect (by decide) _ c').bind fun _ _ _ => .pure rfl
  | leftBracket =>
      refine (EmbedsAt.advance hc).bind fun _ c' _ => ?_
      exact (listUntil hsub (by decide) _ c').bind fun _ _ _ => .pure rfl
  | leftBrace => exact (EmbedsAt.advance hc).bind fun _ c' _ => objectBody hsub c'
  | dollar =>
      refine (EmbedsAt.advance hc).bind fun _ c' _ => ?_
      exact (pathFrom _ c').bind fun _ _ _ => .pure rfl
  | identifier => exact named hsub hc
  | quotedIdentifier => exact named hsub hc
  | _ => exact FailsAt.unexpected.embeds

theorem signed (hsub : Embeds s (fun _ => 1) (sub signPower) (sub' signPower)) (kind : TokenKind)
    (text : String) (start stop start' stop' : Nat) :
    Embeds s (fun _ => 1) (Parser.signed sub ⟨kind, start, stop, text⟩)
      (Parser.signed sub' ⟨kind, start', stop', text⟩) := by
  have hoperand : Embeds s (fun _ => 1) (Parser.signed.operand sub ⟨kind, start, stop, text⟩)
      (Parser.signed.operand sub' ⟨kind, start', stop', text⟩) := hsub.bind fun e => pure rfl
  refine token_bind (fun number digits _ _ _ _ c hc => ?_) fun c hc => ?_
  · exact .ite (fun _ => (EmbedsAt.advance hc).bind fun _ _ _ => .pure rfl) fun _ => hoperand c
  · exact (hoperand c).failsAt_of_nil hc

theorem operand (hsub : ∀ least, Embeds s (fun _ => 1) (sub least) (sub' least)) :
    Embeds s (fun _ => 1) (Parser.operand sub) (Parser.operand sub') := by
  have hprimary := primary (hsub 0)
  refine token_bind (fun kind text start stop start' stop' c hc => ?_) fun c hc => ?_
  · have hunary : ∀ op least, EmbedsAt s c (fun _ => 1)
        (Parser.advance >>= fun _ => sub least >>= fun e => Pure.pure (Expr.unary op e))
        (Parser.advance >>= fun _ => sub' least >>= fun e => Pure.pure (Expr.unary op e)) :=
      fun op least => (EmbedsAt.advance hc).bind fun _ c' _ =>
        (hsub least c').bind fun _ _ _ => .pure rfl
    cases kind with
    | minus =>
        refine (EmbedsAt.advance hc).bind fun _ c' _ => ?_
        exact (signed (hsub _) _ _ _ _ _ _ c').mono fun _ => Nat.zero_le 1
    | plus =>
        refine (EmbedsAt.advance hc).bind fun _ c' _ => ?_
        exact (signed (hsub _) _ _ _ _ _ _ c').mono fun _ => Nat.zero_le 1
    | bang => exact hunary _ _
    | tilde => exact hunary _ _
    | _ => exact .ite (fun _ => hunary _ _) fun _ => hprimary c
  · exact (hprimary c).failsAt_of_nil hc

/-! ### Predicates -/

theorem inList (hsub : ∀ least, Embeds s (fun _ => 1) (sub least) (sub' least)) :
    Embeds s (fun _ => 1) (Parser.inList sub target negated) (Parser.inList sub' target negated) := by
  intro c
  have hoperand := hsub operandPower c
  refine .kind_bind (fun hc => ?_) fun hc => ?_
  · split
    · refine (EmbedsAt.advance hc).bind fun _ c' _ => ?_
      exact (listUntil (hsub 0) (by decide) _ c').bind fun _ _ _ => .pure rfl
    · refine position_bind (fun start start' c' => ?_) c
      refine (primary (hsub 0) c').bind fun e c' _ => ?_
      exact (requireLiterals e start start' c').bind fun _ _ _ => .pure rfl
    · exact hoperand.bind fun _ _ _ => .pure rfl
  · exact (hoperand.failsAt_of_nil hc).bind

/-- The word of a predicate is a token of it. -/
theorem predicate (hsub : ∀ least, Embeds s (fun _ => 1) (sub least) (sub' least))
    (start start' : Nat) :
    Embeds s (fun _ => 1) (Parser.predicate sub target start)
      (Parser.predicate sub' target start') := by
  have hoperand : Embeds s (fun _ => 0) (sub operandPower) (sub' operandPower) :=
    (hsub operandPower).mono fun _ => Nat.zero_le 1
  have hnegation : Embeds s (fun _ => 0) (Parser.acceptWord "not") (Parser.acceptWord "not") :=
    (acceptWord (by decide)).mono fun _ => Nat.zero_le _
  refine hnegation.bind fun negated => ?_
  refine ifWord (by decide) ?_ <| ifWord (by decide) ?overlaps <| ifWord (by decide) ?like <|
    ifWord (by decide) ?between <| ifWord (by decide) ?regexp <|
    ite (fun _ => unexpected) fun _ => ?is
  · exact (inList hsub).mono fun _ => Nat.zero_le 1
  case overlaps =>
    refine (requireLiterals target _ _).bind fun _ => position_bind fun start start' => ?_
    exact hoperand.bind fun right => (requireLiterals right start start').bind fun _ => pure rfl
  case like =>
    have hsome : Embeds s (fun _ => 0) (some <$> sub operandPower) (some <$> sub' operandPower) :=
      map some hoperand
    have hnone : Embeds s (fun _ => 0) (Pure.pure none : Parser (Option Expr)) (Pure.pure none) :=
      pure rfl
    refine hoperand.bind fun pattern => ifWord (by decide) ?_ ?_
    · exact hsome.bind fun escape => pure rfl
    · exact hnone.bind fun escape => pure rfl
  case between =>
    refine hoperand.bind fun low => (expectWord (by decide)).bind fun _ => ?_
    exact hoperand.bind fun high => pure rfl
  case regexp => exact hoperand.bind fun pattern => pure rfl
  case is =>
    refine (expectWord (by decide)).bind fun _ => hnegation.bind fun negated => ?_
    exact hoperand.bind fun value => pure rfl

/-! ### Expressions -/

theorem atPredicate_iff {c₂ : Cursor} (hc : c₂.ahead = c.ahead.within s) :
    atPredicate c₂ = true ↔ atPredicate c = true := by
  have hword : ∀ word, word ∉ clauseWords → c₂.isWordAt 0 word = c.isWordAt 0 word :=
    fun _ => Cursor.isWordAt_within hc (Nat.zero_le _)
  have hany : ∀ n, n ≤ c.rest.length →
      predicateWords.any (c₂.isWordAt n) = predicateWords.any (c.isWordAt n) := by
    intro n hn
    have heach : ∀ word ∈ predicateWords, c₂.isWordAt n word = c.isWordAt n word := by
      intro word hmem
      have hnot : ∀ word ∈ predicateWords, word ∉ clauseWords := by decide
      exact Cursor.isWordAt_within hc hn (hnot word hmem)
    rw [Bool.eq_iff_iff, List.any_eq_true, List.any_eq_true]
    exact exists_congr fun word => and_congr_right fun hmem => by rw [heach word hmem]
  rw [atPredicate, atPredicate, hword "is" (by decide), hword "not" (by decide)]
  split
  · next hnot =>
      have hlength : 1 ≤ c.rest.length := by
        refine List.length_pos_iff.mpr fun hnil => ?_
        rw [Cursor.isWordAt, hnil] at hnot
        cases hnot
      rw [hany 1 hlength]
  · rw [hany 0 (Nat.zero_le _)]

/-- Neither a predicate nor an operator starts the tail. -/
theorem operators {c : Cursor} {least start start' bound bound' : Nat} {left : Expr}
    (hsub : ∀ least, Embeds s (fun _ => 1) (sub least) (sub' least))
    (hbound : c.rest.length ≤ bound) (hle : bound ≤ bound') :
    EmbedsAt s c (fun _ => 0) (Parser.operators sub least start bound left)
      (Parser.operators sub' least start' bound' left) := by
  -- Every turn takes a token, so neither bound is used up before the loop is at its end.
  induction bound generalizing c bound' left with
  | zero =>
      refine EmbedsAt.pure_of_nil (List.length_eq_zero_iff.mp (Nat.le_zero.mp hbound)) rfl ?_
      exact fun names => Parses.operators_stop s.stops_tail
  | succ bound ih =>
      obtain ⟨bound', rfl⟩ := Nat.exists_eq_succ_of_ne_zero (Nat.ne_zero_of_lt hle)
      refine .ifAhead (fun c₂ hc₂ => atPredicate_iff hc₂) (fun _ => ?_) fun _ => ?_
      · refine .ite (fun _ => .pure rfl) fun _ => ?_
        refine (predicate hsub start start' c).bind fun e c' hc' => ?_
        exact ih (by omega) (Nat.le_of_succ_le_succ hle)
      · refine .peek?_bind (fun kind text start stop start' stop' hc => ?_) fun hc token? htoken => ?_
        · have hop : binaryOp? ⟨kind, start', stop', text⟩ = binaryOp? ⟨kind, start, stop, text⟩ :=
            rfl
          simp only [Option.bind_some, hop]
          split
          · exact .pure rfl
          · refine .ite (fun _ => .pure rfl) fun _ => ?_
            refine (EmbedsAt.advance hc).bind fun _ c₁ hc₁ => (hsub _ c₁).bind fun e c₂ hc₂ => ?_
            exact ih (by omega) (Nat.le_of_succ_le_succ hle)
        · have hop : token?.bind binaryOp? = none := by
            cases token? with
            | none => rfl
            | some token => exact (binaryOp?_eq rfl rfl).trans (htoken token rfl).binaryOp?
          simp only [Option.bind_none, hop]
          exact .pure rfl

theorem expression {depth depth' : Nat} (hle : depth ≤ depth') (least : Nat) :
    Embeds s (fun _ => 1) (Parser.expression depth least) (Parser.expression depth' least) := by
  -- At depth zero nothing is given, so the greater depth is asked for nothing.
  induction depth generalizing depth' least with
  | zero => exact unexpected
  | succ depth ih =>
      obtain ⟨depth', rfl⟩ := Nat.exists_eq_succ_of_ne_zero (Nat.ne_zero_of_lt hle)
      have hsub := fun least => ih (Nat.le_of_succ_le_succ hle) least
      refine position_bind fun start start' c => ?_
      refine (operand hsub c).bind fun left c' _ => .remaining_bind fun n hn => ?_
      exact operators hsub (Nat.le_refl _) hn

theorem wholeExpression :
    Embeds s (fun _ => 1) Parser.wholeExpression Parser.wholeExpression := fun _ =>
  .remaining_bind fun _ hn => expression (Nat.succ_le_succ hn) 0 _

end Operand

end Embeds

end DocStore
