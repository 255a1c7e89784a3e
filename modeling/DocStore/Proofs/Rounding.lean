import DocStore.Proofs.Number
import DocStore.Value.Basic

/-!
# Integers as floating-point numbers

Main statement: `Value.floatOfInt64_beq_zero`, an integer other than zero is a floating-point number
other than zero.

Rounding keeps the leading bit of a number or carries over into a larger one.  A number of at least one
whose significand fills all bits stays so through rounding, packing and unpacking (`IsNormal`), and so
do all integers on their way to a floating-point number.
-/

namespace DocStore.Decimal

open Float.Model Float.Model.UnpackedFloat

variable {m n : Nat} {e : Int} {s : Sign} {u : UnpackedFloat} {x : Float}

/-! ## Leading bits -/

theorem log2_half (h : 1 ≤ m.log2) : (m / 2).log2 = m.log2 - 1 ∧ 0 < m / 2 := by
  have hm : 2 ≤ m := Nat.le_of_not_lt fun hlt => by
    rw [Nat.log2_def, if_neg (Nat.not_le.mpr hlt)] at h
    omega
  have hlog : m.log2 = (m / 2).log2 + 1 := by
    conv => lhs; rw [Nat.log2_def]
    rw [if_pos hm]
  omega

theorem log2_le_log2 (h : m ≤ n) (hm : 0 < m) : m.log2 ≤ n.log2 :=
  (Nat.le_log2 (by omega)).mpr (Nat.le_trans (Nat.log2_self_le (by omega)) h)

theorem log2_shiftLeft (hm : 0 < m) (n : Nat) : (m <<< n).log2 = m.log2 + n ∧ 0 < m <<< n := by
  induction n with
  | zero => exact ⟨rfl, hm⟩
  | succ n ih =>
      rw [Nat.shiftLeft_succ, Nat.log2_two_mul (Nat.ne_of_gt ih.2)]
      omega

/-- Moving a mantissa to the right, one loses its last bits. -/
theorem log2_shiftRight (em : ExtendedMantissa) (h : n ≤ em.mantissa.log2) (hm : 0 < em.mantissa) :
    (em >>> n).mantissa.log2 = em.mantissa.log2 - n ∧ 0 < (em >>> n).mantissa := by
  induction n with
  | zero => exact ⟨rfl, hm⟩
  | succ n ih =>
      obtain ⟨hlog, hpos⟩ := ih (by omega)
      have hstep : (em >>> (n + 1)).mantissa = (em >>> n).mantissa / 2 := rfl
      obtain ⟨hhalf, hhalfpos⟩ := log2_half (m := (em >>> n).mantissa) (by omega)
      rw [hstep, hhalf]
      omega

/-! ## Rounding -/

/-- A number of at least one with all bits of its significand in use, or infinity. -/
inductive IsNormal : UnpackedFloat → Prop where
  | infinity (s : Sign) : IsNormal (.infinity s)
  | finite (s : Sign) {m : Nat} {e : Int} (hm : 0 < m) (hlog : m.log2 = 52) (he : -52 ≤ e) :
    IsNormal (.finite s m e hm)

/-- The exponent at which the significand of a number of at least one fills all bits. -/
theorem targetExponent_eq (h : 0 ≤ m.log2 + e) :
    Format.binary64.targetExponent (totalExponent m e) = m.log2 + e - 52 := by
  have hbits : (Format.binary64.mantissaBits : Int) = 53 := rfl
  have hleast : Format.binary64.minExponent = -1074 := rfl
  rw [Format.targetExponent, totalExponent, hbits, hleast]
  omega

theorem shiftToTargetExponent_spec (a : Accuracy) (hm : 0 < m) (hbits : 52 ≤ m.log2)
    (he : 0 ≤ m.log2 + e) :
    (shiftToTargetExponent Format.binary64 m e a).1.mantissa.log2 = 52
      ∧ 0 < (shiftToTargetExponent Format.binary64 m e a).1.mantissa
      ∧ (shiftToTargetExponent Format.binary64 m e a).2 = m.log2 + e - 52 := by
  have hmantissa : (ExtendedMantissa.ofMantissaAndAccuracy m a).mantissa = m := by
    rcases a with _ | (_ | _ | _) <;> rfl
  obtain ⟨hlog, hpos⟩ := log2_shiftRight (n := (m.log2 + e - 52 - e).toNat)
    (ExtendedMantissa.ofMantissaAndAccuracy m a) (by rw [hmantissa]; omega) (by rwa [hmantissa])
  rw [hmantissa] at hlog
  rw [shiftToTargetExponent, targetExponent_eq he]
  simp only [shiftToExponent]
  refine ⟨?_, hpos, ?_⟩
  · rw [hlog]
    omega
  · omega

theorem le_roundedMantissa (em : ExtendedMantissa) : em.mantissa ≤ em.roundedMantissa := by
  rcases em with ⟨m, (_ | _), (_ | _)⟩
  · exact Nat.le_refl _
  · exact Nat.le_refl _
  · exact Nat.le_add_right _ _
  · exact Nat.le_succ _

/-- The significand is shifted and rounded, and shifted once more, for the case that it has carried
over. -/
theorem isNormal_roundWithAccuracy (a : Accuracy) (hm : 0 < m) (hbits : 52 ≤ m.log2)
    (he : 0 ≤ m.log2 + e) : IsNormal (roundWithAccuracy Format.binary64 s m e a) := by
  obtain ⟨hlog, hpos, hexponent⟩ := shiftToTargetExponent_spec a hm hbits he
  delta roundWithAccuracy
  dsimp only
  generalize shiftToTargetExponent Format.binary64 m e a = shifted at hlog hpos hexponent ⊢
  have hle := le_roundedMantissa shifted.1
  have hrounded := log2_le_log2 hle hpos
  obtain ⟨hlast, hlastPos, hlastExponent⟩ :=
    shiftToTargetExponent_spec (m := shifted.1.roundedMantissa) (e := shifted.2) .exact
      (by omega) (by omega) (by omega)
  rw [dif_neg (by omega)]
  exact .finite _ _ hlast (by omega)

theorem isNormal_ofInt (hn : 0 < n) : IsNormal (UnpackedFloat.ofInt Format.binary64 n) := by
  have hcompare : compare (n : Int) 0 = .gt := Int.compare_eq_gt.mpr (by omega)
  obtain ⟨hlog, hpos⟩ := log2_shiftLeft hn (0 - (n.log2 + (0 : Int) - 52)).toNat
  rw [UnpackedFloat.ofInt, UnpackedFloat.normalize, hcompare]
  simp only [UnpackedFloat.round, decreaseExponent, Int.toNat_natCast]
  rw [targetExponent_eq (by omega)]
  exact isNormal_roundWithAccuracy _ hpos (by omega) (by omega)

/-- A product of numbers of at least one. -/
theorem isNormal_mul_finite {s' : Sign} {m' : Nat} {e' : Int} (hm : 0 < m) (hm' : 0 < m')
    (hbits : 52 ≤ m.log2) (he : 0 ≤ m.log2 + e) (he' : 0 ≤ m'.log2 + e') :
    IsNormal (UnpackedFloat.mul Format.binary64 (.finite s m e hm) (.finite s' m' e' hm')) := by
  have hpow : 2 ^ (m.log2 + m'.log2) ≤ m * m' := by
    rw [Nat.pow_add]
    exact Nat.mul_le_mul (Nat.log2_self_le (by omega)) (Nat.log2_self_le (by omega))
  have hpos : 0 < m * m' := Nat.mul_pos hm hm'
  have hlog : m.log2 + m'.log2 ≤ (m * m').log2 := (Nat.le_log2 (by omega)).mpr hpow
  exact isNormal_roundWithAccuracy _ hpos (by omega) (by omega)

/-! ## Packing -/

/-- The bits of a significand behind its leading one. -/
theorem log2_append (m : BitVec 52) : (1#1 ++ m).toNat.log2 = 52 := by
  have hvalue : (1#1 ++ m).toNat = 2 ^ 52 + m.toNat := by
    rw [BitVec.toNat_append, ← Nat.shiftLeft_add_eq_or_of_lt m.isLt]
    rfl
  have hlt : m.toNat < 2 ^ 52 := m.isLt
  rw [hvalue, Nat.log2_eq_iff (by omega)]
  omega

theorem isNormal_unpack_pack (h : IsNormal u) :
    IsNormal (UnpackedFloat.unpack Format.binary64 (UnpackedFloat.pack Format.binary64 u)) := by
  cases h with
  | infinity s => cases s <;> exact .infinity _
  | @finite s m e hm hlog he =>
      have hbias : (Format.binary64.exponentBias : Int) = 1023 := rfl
      have hwidth : (Format.binary64.mantissaBitsWithoutImplicit : Int) = 52 := rfl
      have hfield : 2 ^ Format.binary64.exponentBits = 2048 := rfl
      have hbits : Format.binary64.mantissaBits = 53 := rfl
      delta UnpackedFloat.pack
      dsimp only
      rw [hbias, hwidth, hfield, hbits, hlog]
      by_cases hlarge : 2048 ≤ (e + 1023 + 52).toNat + 1
      · rw [if_pos hlarge]
        cases s <;> exact .infinity _
      · rw [if_neg hlarge, if_pos rfl]
        -- The field of the exponent is neither of the two that have a meaning of their own.
        have hexponent : (BitVec.ofNat 11 (e + 1023 + 52).toNat).toNat = (e + 1023 + 52).toNat :=
          Nat.mod_eq_of_lt (by omega)
        have hall : BitVec.ofNat 11 (e + 1023 + 52).toNat ≠ -1#11 := fun heq => by
          rw [heq, BitVec.toNat_neg] at hexponent
          simp at hexponent
          omega
        have hnone : BitVec.ofNat 11 (e + 1023 + 52).toNat ≠ 0#11 := fun heq => by
          rw [heq, BitVec.toNat_zero] at hexponent
          omega
        delta UnpackedFloat.unpack
        dsimp only
        rw [unpackExponent_packComponents, if_neg hall, if_neg hnone]
        refine .finite _ _ (log2_append _) ?_
        rw [hbias, hwidth, hexponent]
        omega

theorem isNormal_ofModel_pack (h : IsNormal u) :
    IsNormal (Float.ofModel (Float.Model.pack u)).toModel.unpack := isNormal_unpack_pack h

/-! ## Integers -/

/-- An integer of more bits than a significand has is taken as a fraction, and multiplied by one. -/
theorem ofScientific_eq_mul (hn : 0 < n) :
    UnpackedFloat.ofScientific Format.binary64 n 0
      = UnpackedFloat.mul Format.binary64
        (.finite .positive (n <<< 53) (-53) (log2_shiftLeft hn 53).2)
        (.finite .positive 1 0 Nat.one_pos) := by
  have hpow : (0 : Int) < 2 ^ Format.binary64.exponentBits := by decide
  have hleast : ¬ (0 : Int) < -(2 ^ Format.binary64.exponentBits + n.log2) := by omega
  delta UnpackedFloat.ofScientific
  rw [dif_neg (Nat.ne_of_gt hn), if_neg (Int.not_lt.mpr (Int.le_of_lt hpow)), if_neg hleast,
    if_pos (Int.le_refl 0)]
  rfl

theorem ofScientific_of_small (h : n < Nat.pow 2 53 ∧ 0 ≤ 22) :
    Float.ofScientific n false 0
      = n.toUInt64.toFloat * getElem Float.exactlyRepresentablePowersOfTen 0 (by decide) := by
  rw [Float.ofScientific, dif_pos h]
  rfl

theorem ofScientific_of_large (h : ¬ (n < Nat.pow 2 53 ∧ 0 ≤ 22)) :
    Float.ofScientific n false 0
      = Float.ofModel (Float.Model.pack (UnpackedFloat.ofScientific Format.binary64 n 0)) := by
  rw [Float.ofScientific, dif_neg h]
  rfl

/-- The first power of ten. -/
theorem unpack_one : (getElem Float.exactlyRepresentablePowersOfTen 0 (by decide)).toModel.unpack
    = .finite .positive (Nat.pow 2 52) (-52) (by decide) := rfl

theorem isNormal_mul_one (h : IsNormal u) :
    IsNormal (UnpackedFloat.mul Format.binary64 u
      (getElem Float.exactlyRepresentablePowersOfTen 0 (by decide)).toModel.unpack) := by
  rw [unpack_one]
  cases h with
  | infinity s => exact .infinity _
  | finite s hm hlog he =>
      have hone : (Nat.pow 2 52).log2 = 52 := Nat.log2_two_pow
      exact isNormal_mul_finite hm _ (by omega) (by omega) (by omega)

theorem isNormal_ofScientific (hn : 0 < n) :
    IsNormal (Float.ofScientific n false 0).toModel.unpack := by
  by_cases hsmall : n < Nat.pow 2 53 ∧ 0 ≤ 22
  · have hsize : Nat.pow 2 53 < UInt64.size := by decide
    have hword : n.toUInt64.toNat = n := Nat.mod_eq_of_lt (Nat.lt_trans hsmall.1 hsize)
    have hfactor : IsNormal n.toUInt64.toFloat.toModel.unpack :=
      isNormal_ofModel_pack (isNormal_ofInt (n := n.toUInt64.toNat) (by omega))
    rw [ofScientific_of_small hsmall]
    exact isNormal_ofModel_pack (isNormal_mul_one hfactor)
  · obtain ⟨hlog, hpos⟩ := log2_shiftLeft hn 53
    rw [ofScientific_of_large hsmall]
    refine isNormal_ofModel_pack ?_
    rw [ofScientific_eq_mul hn]
    exact isNormal_mul_finite hpos Nat.one_pos (by omega) (by omega) (by omega)

theorem isNormal_neg (h : IsNormal x.toModel.unpack) : IsNormal x.neg.toModel.unpack := by
  refine isNormal_ofModel_pack ?_
  generalize x.toModel.unpack = u at h ⊢
  cases h with
  | infinity s => exact .infinity _
  | finite s hm hlog he => exact .finite _ hm hlog he

theorem beq_zero (h : IsNormal x.toModel.unpack) : (x == 0.0) = false := by
  have hzero : (0.0 : Float).toModel.unpack = .zero .positive := rfl
  show (x.toModel.unpack.compare (0.0 : Float).toModel.unpack == some .eq) = false
  rw [hzero]
  generalize x.toModel.unpack = u at h ⊢
  cases h with
  | infinity s => cases s <;> rfl
  | finite s hm hlog he => cases s <;> rfl

end DocStore.Decimal

namespace DocStore.Value

open DocStore.Decimal

/-- An integer other than zero is a floating-point number other than zero. -/
theorem floatOfInt64_beq_zero {i : Int64} (h : i ≠ 0) : (floatOfInt64 i == 0.0) = false := by
  have hne : i.toInt ≠ 0 := fun heq => h (Int64.toInt_inj.mp heq)
  refine beq_zero ?_
  rw [floatOfInt64]
  cases hi : i.toInt with
  | ofNat n =>
      rw [hi] at hne
      exact isNormal_ofScientific (Nat.pos_of_ne_zero fun heq => hne (congrArg Int.ofNat heq))
  | negSucc n => exact isNormal_neg (isNormal_ofScientific (Nat.succ_pos n))

end DocStore.Value
