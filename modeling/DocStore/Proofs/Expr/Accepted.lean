import DocStore.Expr.Parser
import DocStore.Proofs.Expr.Scanning
import DocStore.Proofs.Outcome

/-!
# What accepted texts give

Facts about the result of reading a text that hold for every text that is accepted.  A document path
leads somewhere (`Path.not_isRoot_of_parse`), and a list has an element (`Expr.ne_nil_of_parseList`).

A parser that is put together from several has accepted only if each of them has (`bind_eq_ok`).
-/

namespace DocStore

namespace Parser

variable {α β : Type} {c : Cursor}

theorem bind_eq_ok {p : Parser α} {f : α → Parser β} {result : β × Cursor} :
    (p >>= f) c = .ok result ↔ ∃ a c', p c = .ok (a, c') ∧ f a c' = .ok result := by
  refine Outcome.bind_eq_ok.trans ⟨?_, ?_⟩
  · rintro ⟨⟨a, c'⟩, hp, hf⟩
    exact ⟨a, c', hp, hf⟩
  · rintro ⟨a, c', hp, hf⟩
    exact ⟨(a, c'), hp, hf⟩

/-- A source is accepted if its tokens are. -/
theorem exists_lex_of_run {p : Parser α} {source : String} {a : α}
    (h : (p.run source).map Prod.fst = .ok a) :
    ∃ tokens c', Token.lexFrom 0 none source.toList = .ok tokens
      ∧ p (Cursor.ofTokens tokens) = .ok (a, c') := by
  cases hrun : p.run source with
  | error e =>
      rw [hrun] at h
      cases h
  | ok result =>
      rw [hrun] at h
      cases h
      obtain ⟨tokens, hlex, hp⟩ := Outcome.bind_eq_ok.mp hrun
      exact ⟨tokens, _, (Token.lex_eq source).symm.trans hlex, hp⟩

theorem run_eq_ok {p : Parser α} {source : String} {a : α}
    (h : (p.run source).map Prod.fst = .ok a) : ∃ c c', p c = .ok (a, c') := by
  obtain ⟨tokens, c', -, hp⟩ := exists_lex_of_run h
  exact ⟨_, c', hp⟩

theorem expectEnd_eq_ok {c' : Cursor} {u : Unit} (h : expectEnd c = .ok (u, c')) :
    c.rest = [] ∧ c' = c := by
  obtain ⟨rest, position, names⟩ := c
  cases rest with
  | nil =>
      cases h
      exact ⟨rfl, rfl⟩
  | cons token rest => cases h

theorem commaSeparated_ne_nil {element : Parser α} {items : List α} {c' : Cursor}
    (h : commaSeparated element c = .ok (items, c')) : items ≠ [] := by
  obtain ⟨first, c₁, -, h⟩ := bind_eq_ok.mp h
  obtain ⟨bound, c₂, -, h⟩ := bind_eq_ok.mp h
  obtain ⟨more, c₃, -, h⟩ := bind_eq_ok.mp h
  cases h
  exact List.cons_ne_nil first more

theorem ne_nil_of_parseList {element : Parser α} {text : String} {items : List α}
    (h : (Parser.run (do let items ← commaSeparated element; expectEnd; return items)
      text).map Prod.fst = .ok items) : items ≠ [] := by
  obtain ⟨c, c', hread⟩ := run_eq_ok h
  obtain ⟨found, c₁, hfound, hread⟩ := bind_eq_ok.mp hread
  obtain ⟨_, c₂, -, hpure⟩ := bind_eq_ok.mp hread
  cases hpure
  exact commaSeparated_ne_nil hfound

theorem not_isRoot_of_documentPath {path : Path} {c' : Cursor}
    (h : documentPath c = .ok (path, c')) : path.isRoot = false := by
  obtain ⟨start, c₁, -, h⟩ := bind_eq_ok.mp h
  obtain ⟨kind, c₂, -, h⟩ := bind_eq_ok.mp h
  -- However the path begins, it is checked in the end.
  have hchecked : ∀ {found : Path} {c : Cursor},
      (if found.isRoot = true then do
          let done : PUnit ← throw (ParseError.rootPath start)
          expectEnd
          return found
        else do
          expectEnd
          return found : Parser Path) c = .ok (path, c') → path.isRoot = false := by
    intro found c h
    by_cases hroot : found.isRoot = true
    · rw [if_pos hroot] at h
      cases h
    · rw [if_neg hroot] at h
      obtain ⟨done, c₄, -, h⟩ := bind_eq_ok.mp h
      cases h
      exact Bool.eq_false_iff.mpr hroot
  split at h
  · obtain ⟨done, c₃, -, h⟩ := bind_eq_ok.mp h
    obtain ⟨found, c₄, -, h⟩ := bind_eq_ok.mp h
    exact hchecked h
  · obtain ⟨name, c₃, -, h⟩ := bind_eq_ok.mp h
    obtain ⟨found, c₄, -, h⟩ := bind_eq_ok.mp h
    exact hchecked h
  · obtain ⟨name, c₃, -, h⟩ := bind_eq_ok.mp h
    obtain ⟨found, c₄, -, h⟩ := bind_eq_ok.mp h
    exact hchecked h
  · obtain ⟨found, c₄, -, h⟩ := bind_eq_ok.mp h
    exact hchecked h

end Parser

/-- A document path leads somewhere. -/
theorem Path.not_isRoot_of_parse {text : String} {path : Path} (h : Path.parse text = .ok path) :
    path.isRoot = false := by
  obtain ⟨c, c', hpath⟩ := Parser.run_eq_ok h
  exact Parser.not_isRoot_of_documentPath hpath

theorem Expr.ne_nil_of_parseList {text : String} {es : List Expr}
    (h : Expr.parseList text = .ok es) : es ≠ [] := Parser.ne_nil_of_parseList h

end DocStore
