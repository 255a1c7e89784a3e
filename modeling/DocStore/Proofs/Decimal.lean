import DocStore.Decimal.Numeral

/-!
# Reading numerals back

The decimal digits of a number, with a sign where it has one, are read as that number.
-/

namespace DocStore.Decimal

variable {n bound : Nat} {c : Char} {cs : List Char}

theorem isDigit_of_mem_toDigits (h : c ∈ Nat.toDigits 10 n) : c.isDigit = true :=
  Nat.isDigit_of_mem_toDigits (by decide) (by decide) h

theorem digits?_toDigits (n : Nat) : digits? (Nat.toDigits 10 n) = some n := by
  have hall : (Nat.toDigits 10 n).all Char.isDigit = true :=
    List.all_eq_true.mpr fun c hc => isDigit_of_mem_toDigits hc
  have hne : (Nat.toDigits 10 n).isEmpty = false := by simp
  have hvalue : valueOf (Nat.toDigits 10 n) = n := Nat.ofDigitChars_ten_toDigits
  rw [digits?, hne, hall, hvalue]
  rfl

theorem natural?_of_isDigit (h : c.isDigit = true) : natural? (c :: cs) = digits? (c :: cs) := by
  unfold natural?
  split
  · next heq =>
      obtain ⟨rfl, rfl⟩ := List.cons.inj heq
      cases h
  · rfl

theorem natural?_toDigits (n : Nat) : natural? (Nat.toDigits 10 n) = some n := by
  rw [← digits?_toDigits n]
  cases h : Nat.toDigits 10 n with
  | nil => rfl
  | cons c cs =>
      exact natural?_of_isDigit (isDigit_of_mem_toDigits (h ▸ List.mem_cons_self))

theorem naturalBelow?_toDigits (h : n < bound) :
    naturalBelow? bound (Nat.toDigits 10 n) = some n := by
  rw [naturalBelow?, natural?_toDigits]
  simp [h]

theorem integer?_toDigits (n : Nat) : integer? (Nat.toDigits 10 n) = some (n : Int) := by
  have hread : (natural? (Nat.toDigits 10 n)).map Int.ofNat = some (n : Int) := by
    rw [natural?_toDigits]
    rfl
  cases h : Nat.toDigits 10 n with
  | nil => exact absurd h Nat.toDigits_ne_nil
  | cons c cs =>
      have hc : c.isDigit = true := isDigit_of_mem_toDigits (h ▸ List.mem_cons_self)
      rw [h] at hread
      rw [← hread]
      unfold integer?
      split
      · next heq =>
          obtain ⟨rfl, rfl⟩ := List.cons.inj heq
          cases hc
      · rfl

theorem integer?_neg_toDigits (n : Nat) :
    integer? ('-' :: Nat.toDigits 10 n) = some (-(n : Int)) := by
  rw [integer?, digits?_toDigits]
  rfl

/-- The text of an integer is read as the integer. -/
theorem integer?_repr (i : Int) : integer? i.repr.toList = some i := by
  rw [Int.repr_eq_if]
  split
  · next h =>
      rw [Nat.toList_repr, integer?_toDigits, Int.toNat_of_nonneg h]
  · next h =>
      have hneg : 0 ≤ -i := by omega
      rw [String.toList_append, Nat.toList_repr]
      show integer? ('-' :: Nat.toDigits 10 (-i).toNat) = some i
      rw [integer?_neg_toDigits, Int.toNat_of_nonneg hneg, Int.neg_neg]

theorem int64?_repr (i : Int64) : int64? i.toInt.repr.toList = some i := by
  rw [int64?, integer?_repr, Option.bind_some, if_pos ⟨Int64.minValue_le_toInt i, Int64.toInt_le i⟩,
    Int64.ofInt_toInt]

/-- A natural number too big for a signed integer. -/
theorem int64?_toDigits_of_lt (h : Int64.maxValue.toInt < n) :
    int64? (Nat.toDigits 10 n) = none := by
  rw [int64?, integer?_toDigits, Option.bind_some, if_neg]
  omega

theorem uint64?_toDigits (n : UInt64) : uint64? (Nat.toDigits 10 n.toNat) = some n := by
  rw [uint64?, naturalBelow?_toDigits n.toNat_lt, Option.map_some, UInt64.ofNat_toNat]

end DocStore.Decimal
