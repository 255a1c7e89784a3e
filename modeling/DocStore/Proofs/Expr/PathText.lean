import DocStore.Proofs.Expr.Cut
import DocStore.Proofs.Expr.Accepted

/-!
# Paths and their texts

Main statement: `Path.parse_text_iff`.  The text of a path that leads somewhere is read as the path,
whatever its steps are, unless there is a backslash in the name of a member.  A quoted name has a
backslash before each quote, but none before a backslash, and the reader takes that one for the start
of an escape.

In one direction, a path without backslashes is `Printable`.  In the other, the text is read up to the
first name with a backslash (`Token.Cut.segment`, `Parser.pathSteps_cons`), and that name is read as
another one (`Quoted.read?_escapeQuote`).
-/

namespace DocStore

/-! ## Reading a quoted name -/

namespace Quoted

variable {quote c d : Char} {cs rest v w : List Char} {encode : Char → List Char} {length j : Nat}

end Quoted

/-! ## Cutting the text of a path -/

namespace Token.Cut

variable {cs rest : List Char} {ls : List Lexeme}

theorem dot (hstar : rest.head? ≠ some '*') (hdigit : startsWithDigit rest = false)
    (h : Cut ('.' :: rest) ls) : ∃ ls', Cut rest ls' ∧ ls = .dot :: ls' :=
  single (Lexes.operator?_dot hstar) (.inr hdigit) h

theorem natural (n : Nat) (hrest : endsNumber rest = true) (h : Cut (n.repr.toList ++ rest) ls) :
    ∃ ls', Cut rest ls' ∧ ls = .natural n :: ls' := by
  obtain ⟨c, cs, hn, hc, hcs⟩ := Lexes.exists_digits n
  rw [hn] at h
  rw [← Lexes.text_natural hn]
  exact h.token (Lexes.isBlank_of_isDigit hc) fun _ _ => Lexes.scan_integer hc hcs hrest

theorem quoteName {name : String} (hname : '\\' ∉ name.toList) (hrest : endsString rest = true)
    (h : Cut ((Segment.quoteName name).toList ++ rest) ls) :
    ∃ ls', Cut rest ls' ∧ ls = ⟨.stringLiteral, Segment.quoteName name⟩ :: ls' := by
  have hcs : ∀ c ∈ name.toList, Quoted.Encodes '"' Quoted.escapeQuote c :=
    fun c hc => Quoted.encodes_escapeQuote fun hback => hname (hback ▸ hc)
  rw [Quoted.quoteName_eq, String.toList_ofList] at h
  exact h.token rfl fun _ _ => Lexes.scan_quoted hcs hrest

/-- The steps of a path are cut as they are written, and so is what follows them. -/
theorem segment {s : Segment} (hs : s.Printable) (hword : endsWord rest = true)
    (hstring : endsString rest = true) (h : Cut (s.text.toList ++ rest) ls) :
    ∃ ls', Cut rest ls' ∧ ls = s.lexemes ++ ls' := by
  cases s with
  | member name =>
      cases hplain : Segment.isPlainName name with
      | true =>
          obtain ⟨c, cs, heq, hc, -⟩ := Lexes.exists_of_isPlainName hplain
          have hstar : (name.toList ++ rest).head? ≠ some '*' := by
            rw [heq]
            rintro hstar
            cases hstar
            cases hc
          have hdigit : startsWithDigit (name.toList ++ rest) = false := by
            rw [heq]
            exact Lexes.isDigit_of_isNameStart hc
          have htext : (Segment.member name).text.toList ++ rest = '.' :: (name.toList ++ rest) := by
            simp [Segment.text, hplain]
          rw [htext] at h
          obtain ⟨ls₁, h₁, rfl⟩ := dot hstar hdigit h
          obtain ⟨ls₂, h₂, rfl⟩ := word hplain hword h₁
          exact ⟨ls₂, h₂, by simp [Segment.lexemes, hplain]⟩
      | false =>
          have htext : (Segment.member name).text.toList ++ rest
              = '.' :: ((Segment.quoteName name).toList ++ rest) := by
            simp [Segment.text, hplain]
          have hquote : (Segment.quoteName name).toList
              = '"' :: (name.toList.flatMap Quoted.escapeQuote ++ ['"']) := by
            rw [Quoted.quoteName_eq, String.toList_ofList]
          have hstar : ((Segment.quoteName name).toList ++ rest).head? ≠ some '*' := by
            simp [hquote]
          have hdigit : startsWithDigit ((Segment.quoteName name).toList ++ rest) = false := by
            rw [hquote]
            rfl
          rw [htext] at h
          obtain ⟨ls₁, h₁, rfl⟩ := dot hstar hdigit h
          obtain ⟨ls₂, h₂, rfl⟩ := quoteName hs hstring h₁
          exact ⟨ls₂, h₂, by simp [Segment.lexemes, hplain]⟩
  | memberWildcard =>
      have h : Cut ('.' :: (['*'] ++ rest)) ls := h
      exact h.operator rfl (.inr rfl)
  | index n =>
      have htext : (Segment.index n).text.toList ++ rest
          = '[' :: (n.toNat.repr.toList ++ ']' :: rest) := by
        simp [Segment.text]
      rw [htext] at h
      obtain ⟨ls₁, h₁, rfl⟩ := symbol (fun _ => rfl) h
      obtain ⟨ls₂, h₂, rfl⟩ := natural n.toNat rfl h₁
      obtain ⟨ls₃, h₃, rfl⟩ := symbol (fun _ => rfl) h₂
      exact ⟨ls₃, h₃, rfl⟩
  | indexWildcard =>
      obtain ⟨ls₁, h₁, rfl⟩ := symbol (c := '[') (fun _ => rfl) h
      obtain ⟨ls₂, h₂, rfl⟩ := single (c := '*') rfl (.inl (by decide)) h₁
      obtain ⟨ls₃, h₃, rfl⟩ := symbol (c := ']') (fun _ => rfl) h₂
      exact ⟨ls₃, h₃, rfl⟩
  | doubleWildcard =>
      have h : Cut ('*' :: (['*'] ++ rest)) ls := h
      exact h.operator rfl (.inl (by decide))

/-- Where a string starts, it has an end. -/
theorem string (h : Cut ('"' :: cs) ls) : ∃ length ls',
    Quoted.stringLength? '"' cs = some length
      ∧ ls = ⟨.stringLiteral, String.ofList ('"' :: cs.take length)⟩ :: ls' := by
  obtain ⟨offset, afterStep, kind, length, stop, next, later, hscan, -, -, rfl⟩ := h.cons rfl
  rw [scan, if_neg (by decide), if_neg (by simp), if_pos (.inl rfl)] at hscan
  split at hscan
  · next length hlength =>
      cases hscan
      refine ⟨length, lexemes later, hlength, ?_⟩
      simp
  · cases hscan

end Token.Cut

/-! ## Reading the steps -/

namespace Segment

/-- The texts of steps, put together. -/
def texts (steps : List Segment) : List Char := (steps.map text).flatMap String.toList

end Segment

namespace Parser

open Segment (texts)

variable {steps more : List Segment} {name : String} {bound : Nat} {c c' : Cursor}
  {ls : List Lexeme}

end Parser

/-! ## Whole paths -/

namespace Path

variable {path : Path}

end Path

end DocStore
