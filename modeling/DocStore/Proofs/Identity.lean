import DocStore.Identity
import DocStore.Proofs.Json.Scalar
import Mathlib.Algebra.Group.Nat.Defs
import Mathlib.Data.List.Nodup

/-!
# The serials of identifiers

An identifier ends in the digits of its serial, whatever its label and its time are, so the serial can
be read back from it (`serialOf_next`).  A source gives its serials one after the other
(`serial_next`).
-/

namespace DocStore.Identity

/-- The number that hexadecimal digits stand for. -/
def readHex (digits : List Char) : Nat :=
  digits.foldl (fun n c => n * 16 + (Text.hexValue? c).getD 0) 0

/-- The serial in an identifier. -/
def serialOf (id : String) : Nat :=
  readHex (id.toList.drop (id.toList.length - serialLength))

/-! ## Digits -/

theorem length_hexDigits (count n : Nat) : (hexDigits count n).length = count := by
  induction count generalizing n with
  | zero => rfl
  | succ count ih => rw [hexDigits, List.length_append, ih, List.length_singleton]

theorem readHex_append (digits : List Char) {c : Char} {d : Nat} (hd : Text.hexValue? c = some d) :
    readHex (digits ++ [c]) = readHex digits * 16 + d := by
  rw [readHex, List.foldl_append, List.foldl_cons, List.foldl_nil, hd]
  rfl

theorem readHex_hexDigits (count n : Nat) : readHex (hexDigits count n) = n % 16 ^ count := by
  induction count generalizing n with
  | zero => exact (Nat.mod_one n).symm
  | succ count ih =>
      have hdigit := Json.hexValue?_hexDigit (Nat.mod_lt n (show 16 > 0 by decide))
      rw [hexDigits, readHex_append _ hdigit, ih, Nat.pow_succ', Nat.mod_mul, Nat.mul_comm 16,
        Nat.add_comm]

/-! ## Serials -/

theorem serialOf_text (source : Identity) : serialOf source.text = source.serial.toNat := by
  have htext : source.text.toList
      = (source.label ++ String.ofList (hexDigits timeLength source.timestamp.toNat)).toList
        ++ hexDigits serialLength source.serial.toNat := by
    rw [text, String.toList_append, serialText, String.toList_ofList]
  rw [serialOf, htext, List.length_append, length_hexDigits, Nat.add_sub_cancel,
    List.drop_left, readHex_hexDigits]
  exact Nat.mod_eq_of_lt source.serial.toNat_lt

@[simp] theorem serial_refresh (source : Identity) (now : UInt64) :
    (source.refresh now).serial = source.serial := by
  rw [refresh]
  split <;> rfl

theorem serial_next (source : Identity) (now : UInt64) :
    (source.next now).2.serial = source.serial + 1 := by
  rw [next, serial_refresh]

theorem serialOf_next (source : Identity) (now : UInt64) :
    serialOf (source.next now).1 = (source.serial + 1).toNat := by
  rw [← serial_next source now]
  exact serialOf_text _

/-! ## Many serials -/

/-- The serials of `count` identifiers in a row, the first of which is made after `made` others.  A
serial has sixteen digits, so they start again at some point. -/
def serials (made count : Nat) : List Nat :=
  (List.range' (made + 1) count).map (· % UInt64.size)

theorem serials_succ (made count : Nat) :
    serials made (count + 1) = (made + 1) % UInt64.size :: serials (made + 1) count := by
  rw [serials, List.range'_succ, List.map_cons]
  rfl

theorem serials_add (made first second : Nat) :
    serials made (first + second) = serials made first ++ serials (made + first) second := by
  rw [serials, serials, serials, ← List.map_append, Nat.add_right_comm made first 1,
    List.range'_append_1]

theorem nodup_serials {count : Nat} (h : count < UInt64.size) (made : Nat) :
    (serials made count).Nodup := by
  refine List.Nodup.map_on (fun a ha b hb heq => ?_) List.nodup_range'
  rw [List.mem_range'_1] at ha hb
  -- Numbers less than `UInt64.size` apart that have the same remainder are one number.
  unfold UInt64.size at h heq
  omega

end DocStore.Identity
