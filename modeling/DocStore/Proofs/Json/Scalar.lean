import DocStore.Json.Printer
import DocStore.Json.Reader
import DocStore.Proofs.Decimal
import Mathlib.Tactic.SplitIfs

/-!
# Where a scalar's text ends

Main statements: `quoteChars_append_inj` and `repr_append_inj`.  A string literal ends at its closing
quote, whatever follows it, and the digits of an integer end where none follows.  So the text that
starts with one of them tells which it is and what comes after it.

For strings this is seen from the reader, which reads back what the printer writes
(`stringBody_flatMap`).
-/

namespace DocStore.Json

open Text Text.Reader Reader

variable {c : Char} {cs ds r s : List Char} {n : Nat}

/-! ## Strings -/

theorem hexValue?_hexDigit (h : n < 16) : hexValue? (hexDigit n) = some n := by
  have hall : ∀ n < 16, hexValue? (hexDigit n) = some n := by decide
  exact hall n h

theorem hex4_hexDigit (h : n < 256) (r : List Char) :
    hex4 ('0' :: '0' :: hexDigit (n / 16) :: hexDigit (n % 16) :: r) = some (n, r) := by
  have hdigit : ∀ {α : Type} (k : Nat → Reader α) (c : Char) (m : Nat) (cs : List Char),
      hexValue? c = some m →
        ((do (hexValue? (← next)).elim failure pure) >>= k) (c :: cs) = k m cs := by
    intro α k c m cs hc
    show ((hexValue? c).elim failure pure >>= k) cs = k m cs
    rw [hc]
    rfl
  have hhigh : hexValue? (hexDigit (n / 16)) = some (n / 16) := hexValue?_hexDigit (by omega)
  have hlow : hexValue? (hexDigit (n % 16)) = some (n % 16) := hexValue?_hexDigit (by omega)
  rw [hex4, hdigit _ _ 0 _ rfl, hdigit _ _ 0 _ rfl, hdigit _ _ _ _ hhigh, hdigit _ _ _ _ hlow]
  show some (4096 * 0 + 256 * 0 + 16 * (n / 16) + n % 16, r) = some (n, r)
  have hn : 4096 * 0 + 256 * 0 + 16 * (n / 16) + n % 16 = n := by omega
  rw [hn]

/-- The escape of a character, its backslash being taken, is read as the character. -/
theorem escape_control (h : c.toNat < 0x20) (r : List Char) :
    escape ('u' :: '0' :: '0' :: hexDigit (c.toNat / 16) :: hexDigit (c.toNat % 16) :: r)
      = some (c, r) := by
  show unicodeEscape _ = _
  rw [unicodeEscape]
  show (hex4 _).bind _ = _
  rw [hex4_hexDigit (by omega), Option.bind_some]
  dsimp only
  rw [if_neg (by omega), if_neg (by omega), Char.ofNat_toNat]
  rfl

theorem stringBody_escapeChar (bound : Nat) (c : Char) (r : List Char) :
    stringBody (bound + 1) (escapeChar c ++ r)
      = (stringBody bound r).map fun read => (c :: read.1, read.2) := by
  have hescaped : ∀ ds : List Char, escape (ds ++ r) = some (c, r) →
      stringBody (bound + 1) ('\\' :: (ds ++ r))
        = (stringBody bound r).map fun read => (c :: read.1, read.2) := by
    intro ds h
    rw [stringBody]
    show (escape (ds ++ r)).bind _ = _
    rw [h]
    show (stringBody bound r).bind _ = _
    cases stringBody bound r <;> rfl
  unfold escapeChar
  split_ifs with hquote hback hline htab hreturn h8 h12 hcontrol
  · exact hescaped ['"'] (by rw [hquote]; rfl)
  · exact hescaped ['\\'] (by rw [hback]; rfl)
  · exact hescaped ['n'] (by rw [hline]; rfl)
  · exact hescaped ['t'] (by rw [htab]; rfl)
  · exact hescaped ['r'] (by rw [hreturn]; rfl)
  · exact hescaped ['b'] (by rw [h8]; rfl)
  · exact hescaped ['f'] (by rw [h12]; rfl)
  · exact hescaped _ (escape_control hcontrol r)
  · rw [List.singleton_append, stringBody]
    have hnext : ∀ k : Char → Reader (List Char), (next >>= k) (c :: r) = k c r := fun _ => rfl
    rw [hnext]
    split
    · exact absurd rfl hquote
    · exact absurd rfl hback
    · rw [if_neg hcontrol]
      show (stringBody bound r).bind _ = _
      cases stringBody bound r <;> rfl

/-- A string between quotes is read back, whatever follows it. -/
theorem stringBody_flatMap {bound : Nat} (h : cs.length < bound) (r : List Char) :
    stringBody bound (cs.flatMap escapeChar ++ '"' :: r) = some (cs, r) := by
  induction cs generalizing bound with
  | nil =>
      obtain ⟨bound, rfl⟩ : ∃ n, bound = n + 1 := ⟨bound - 1, by omega⟩
      rfl
  | cons c cs ih =>
      obtain ⟨bound, rfl⟩ : ∃ n, bound = n + 1 := ⟨bound - 1, by omega⟩
      rw [List.flatMap_cons, List.append_assoc, stringBody_escapeChar,
        ih (Nat.lt_of_succ_lt_succ h)]
      rfl

theorem quoteChars_append_inj (h : quoteChars cs ++ r = quoteChars ds ++ s) : cs = ds ∧ r = s := by
  have hbody : cs.flatMap escapeChar ++ '"' :: r = ds.flatMap escapeChar ++ '"' :: s := by
    simpa [quoteChars] using h
  have hcs : stringBody (cs.length + ds.length + 1) (cs.flatMap escapeChar ++ '"' :: r)
      = some (cs, r) := stringBody_flatMap (by omega) r
  have hds : stringBody (cs.length + ds.length + 1) (ds.flatMap escapeChar ++ '"' :: s)
      = some (ds, s) := stringBody_flatMap (by omega) s
  rw [hbody, hds] at hcs
  cases hcs
  exact ⟨rfl, rfl⟩

/-! ## Integers -/

/-- A character of an integer's text. -/
def isNumeral (c : Char) : Bool := c.isDigit || c = '-'

/-- No integer goes on here. -/
def EndsNumeral (cs : List Char) : Prop := ∀ c ∈ cs.head?, isNumeral c = false

theorem endsNumeral_cons (h : isNumeral c = false) : EndsNumeral (c :: cs) := by
  intro d hd
  cases hd
  exact h

theorem isNumeral_of_mem_repr {i : Int} (h : c ∈ i.repr.toList) : isNumeral c = true := by
  have hdigits : ∀ {n : Nat}, c ∈ n.repr.toList → isNumeral c = true := by
    intro n hc
    rw [Nat.toList_repr] at hc
    rw [isNumeral, Decimal.isDigit_of_mem_toDigits hc, Bool.true_or]
  rw [Int.repr_eq_if] at h
  split at h
  · exact hdigits h
  · rw [String.toList_append] at h
    obtain hminus | hc := List.mem_append.mp h
    · rw [List.mem_singleton.mp hminus]
      rfl
    · exact hdigits hc

theorem takeWhile_isNumeral {i : Int} (hr : EndsNumeral r) :
    (i.repr.toList ++ r).takeWhile isNumeral = i.repr.toList := by
  have hnone : r.takeWhile isNumeral = [] := by
    cases r with
    | nil => rfl
    | cons c cs => rw [List.takeWhile_cons_of_neg]; rw [hr c rfl]; decide
  rw [List.takeWhile_append_of_pos fun _ hc => isNumeral_of_mem_repr hc, hnone, List.append_nil]

theorem repr_append_inj {i j : Int} (hr : EndsNumeral r) (hs : EndsNumeral s)
    (h : i.repr.toList ++ r = j.repr.toList ++ s) : i = j ∧ r = s := by
  have htext : i.repr.toList = j.repr.toList := by
    rw [← takeWhile_isNumeral hr, h, takeWhile_isNumeral hs]
  refine ⟨?_, List.append_cancel_left (htext ▸ h)⟩
  have hread : Decimal.integer? i.repr.toList = Decimal.integer? j.repr.toList := by rw [htext]
  rw [Decimal.integer?_repr, Decimal.integer?_repr] at hread
  exact Option.some.inj hread

end DocStore.Json
