import DocStore.Proofs.Decimal

/-!
# Numerals stand for numbers

Main statement: `Decimal.isNaN_float?`, a numeral that starts with a digit or a point, with a sign or
without one, is read as a number, finite or infinite.

Not-a-number comes from an operation on floating-point numbers only if it went into it, or if the
operation has no result, as zero by zero has none.  Reading a numeral divides and multiplies by
powers of ten, which are neither zero nor infinite.
-/

namespace DocStore.Decimal

open Float.Model

variable {u v : UnpackedFloat} {x y : Float} {cs : List Char}

theorem isNaN_ite {p : Prop} [Decidable p] (hu : u.isNaN = false) (hv : v.isNaN = false) :
    (if p then u else v).isNaN = false := by
  by_cases h : p
  · rw [if_pos h]
    exact hu
  · rw [if_neg h]
    exact hv

theorem isNaN_dite {p : Prop} [Decidable p] {a : p → UnpackedFloat} {b : ¬p → UnpackedFloat}
    (ha : ∀ h, (a h).isNaN = false) (hb : ∀ h, (b h).isNaN = false) :
    (if h : p then a h else b h).isNaN = false := by
  by_cases h : p
  · rw [dif_pos h]
    exact ha h
  · rw [dif_neg h]
    exact hb h

/-! ## Packing -/

theorem unpackMantissa_pack (h : u.isNaN = false)
    (hexponent : UnpackedFloat.unpackExponent (UnpackedFloat.pack Format.binary64 u) = -1#_) :
    UnpackedFloat.unpackMantissa (UnpackedFloat.pack Format.binary64 u) = 0#_ := by
  revert hexponent
  fun_cases UnpackedFloat.pack with
  | case1 => cases h
  | case2 s => simp [UnpackedFloat.packedInfinity]
  | case3 s => simp [UnpackedFloat.packedZero]
  | case4 s m e hm biased hlarge => simp [UnpackedFloat.packedInfinity]
  | case5 s m e hm bits biased hsmall hbits =>
      -- The exponent is below the one that stands for what is not finite.
      intro hexponent
      have hfield : 2 ^ Format.binary64.exponentBits = 2048 := rfl
      rw [UnpackedFloat.unpackExponent_packComponents] at hexponent
      have hall : biased % 2048 = 2047 := congrArg BitVec.toNat hexponent
      omega
  | case6 s m e hm bits biased hsmall hbits =>
      intro hexponent
      simp at hexponent

/-- What is packed is unpacked as a number if it was one. -/
theorem isNaN_unpack_pack (h : u.isNaN = false) :
    (UnpackedFloat.unpack Format.binary64 (UnpackedFloat.pack Format.binary64 u)).isNaN
      = false := by
  have hmantissa := unpackMantissa_pack h
  generalize UnpackedFloat.pack Format.binary64 u = packed at hmantissa ⊢
  delta UnpackedFloat.unpack
  dsimp only
  -- The exponents that are no exponents: of what is not finite, and of zero and what is next to it.
  by_cases hall : UnpackedFloat.unpackExponent packed = -1#_
  · rw [if_pos hall, if_pos (hmantissa hall)]
    rfl
  by_cases hnone : UnpackedFloat.unpackExponent packed = 0#_
  · rw [if_neg hall, if_pos hnone]
    exact isNaN_dite (fun _ => rfl) fun _ => rfl
  · rw [if_neg hall, if_neg hnone]
    rfl

theorem isNaN_ofModel_pack (h : u.isNaN = false) :
    (Float.ofModel (Float.Model.pack u)).isNaN = false := isNaN_unpack_pack h

/-! ## Operations -/

theorem isNaN_roundWithAccuracy (s : UnpackedFloat.Sign) (m : Nat) (e : Int)
    (a : UnpackedFloat.Accuracy) :
    (UnpackedFloat.roundWithAccuracy Format.binary64 s m e a).isNaN = false := by
  delta UnpackedFloat.roundWithAccuracy
  exact isNaN_dite (fun _ => rfl) fun _ => rfl

/-- A product with a number other than zero and infinity. -/
theorem isNaN_mul_finite (h : u.isNaN = false) (s : UnpackedFloat.Sign) (m : Nat) (e : Int)
    (hm : 0 < m) :
    (UnpackedFloat.mul Format.binary64 u (.finite s m e hm)).isNaN = false := by
  cases u with
  | notANumber => cases h
  | infinity s' => rfl
  | zero s' => rfl
  | finite s' m' e' hm' => exact isNaN_roundWithAccuracy _ _ _ _

theorem isNaN_div_finite (h : u.isNaN = false) (s : UnpackedFloat.Sign) (m : Nat) (e : Int)
    (hm : 0 < m) :
    (UnpackedFloat.div Format.binary64 u (.finite s m e hm)).isNaN = false := by
  cases u with
  | notANumber => cases h
  | infinity s' => rfl
  | zero s' => rfl
  | finite s' m' e' hm' => exact isNaN_roundWithAccuracy _ _ _ _

theorem isNaN_ofInt (n : Int) : (UnpackedFloat.ofInt Format.binary64 n).isNaN = false := by
  rw [UnpackedFloat.ofInt, UnpackedFloat.normalize]
  split
  · exact isNaN_roundWithAccuracy _ _ _ _
  · rfl
  · exact isNaN_roundWithAccuracy _ _ _ _

theorem isNaN_unpacked_ofScientific (m : Nat) (e : Int) :
    (UnpackedFloat.ofScientific Format.binary64 m e).isNaN = false := by
  delta UnpackedFloat.ofScientific
  refine isNaN_dite (fun _ => rfl) fun _ => isNaN_ite rfl (isNaN_ite rfl (isNaN_ite ?_ ?_))
  · exact isNaN_mul_finite rfl _ _ _ _
  · exact isNaN_div_finite rfl _ _ _ _

theorem isNaN_neg (h : x.isNaN = false) : x.neg.isNaN = false := by
  refine isNaN_ofModel_pack ?_
  have hx : x.toModel.unpack.isNaN = false := h
  cases hu : x.toModel.unpack with
  | notANumber =>
      rw [hu] at hx
      cases hx
  | _ => rfl

/-! ## Powers of ten -/

/-- Neither zero nor infinite, and a number. -/
def IsNonzero (x : Float) : Bool :=
  match x.toModel.unpack with
  | .finite .. => true
  | _ => false

theorem exists_unpack_of_isNonzero (h : IsNonzero x = true) :
    ∃ s m e hm, x.toModel.unpack = .finite s m e hm := by
  delta IsNonzero at h
  cases hu : x.toModel.unpack with
  | finite s m e hm => exact ⟨s, m, e, hm, rfl⟩
  | _ =>
      rw [hu] at h
      cases h

theorem isNonzero_powerOfTen :
    ∀ x ∈ Float.exactlyRepresentablePowersOfTen, IsNonzero x = true := by
  decide

theorem isNaN_mul (hx : x.isNaN = false) (hy : IsNonzero y = true) : (x * y).isNaN = false := by
  obtain ⟨s, m, e, hm, hy⟩ := exists_unpack_of_isNonzero hy
  refine isNaN_ofModel_pack ?_
  rw [hy]
  exact isNaN_mul_finite hx s m e hm

theorem isNaN_div (hx : x.isNaN = false) (hy : IsNonzero y = true) : (x / y).isNaN = false := by
  obtain ⟨s, m, e, hm, hy⟩ := exists_unpack_of_isNonzero hy
  refine isNaN_ofModel_pack ?_
  rw [hy]
  exact isNaN_div_finite hx s m e hm

theorem isNaN_toFloat (n : UInt64) : n.toFloat.isNaN = false := isNaN_ofModel_pack (isNaN_ofInt _)

theorem isNaN_ofScientific (m : Nat) (negative : Bool) (e : Nat) :
    (Float.ofScientific m negative e).isNaN = false := by
  rw [Float.ofScientific]
  split
  · next hsmall =>
      have hsize : Float.exactlyRepresentablePowersOfTen.size = 23 := rfl
      have hpower := isNonzero_powerOfTen _ (Array.getElem_mem (by omega : e < _))
      split
      · exact isNaN_div (isNaN_toFloat _) hpower
      · exact isNaN_mul (isNaN_toFloat _) hpower
  · exact isNaN_ofModel_pack (isNaN_unpacked_ofScientific _ _)

/-! ## Numerals -/

theorem isNaN_nearest (significand : Nat) (exponent : Int) :
    (nearest significand exponent).isNaN = false := by
  simp only [nearest]
  split
  · exact isNaN_ofScientific _ _ _
  · split
    · decide
    · exact isNaN_ofScientific _ _ _

theorem isNaN_unsignedFloat? (h : unsignedFloat? cs = some x) : x.isNaN = false := by
  simp only [unsignedFloat?] at h
  split at h
  all_goals
    split at h
    · cases h
    · obtain ⟨e, -, rfl⟩ := Option.map_eq_some_iff.mp h
      exact isNaN_nearest _ _

/-- A digit or a point stands in front. -/
def StartsNumeral (cs : List Char) : Prop := ∃ c ∈ cs.head?, c.isDigit = true ∨ c = '.'

theorem toLower_eq_self_of_isDigit {c : Char} (h : c.isDigit = true) : c.toLower = c := by
  have hle : c.val ≤ 57 := (of_decide_eq_true (Bool.and_eq_true_iff.mp h).2)
  refine dif_neg fun hupper => ?_
  exact absurd (UInt32.le_trans hupper.1 hle) (by decide)

/-- The names that stand for numbers without digits start with letters. -/
theorem named?_eq_none (h : StartsNumeral cs) : named? cs = none := by
  obtain ⟨c, hc, hstart⟩ := h
  cases cs with
  | nil => cases hc
  | cons first rest =>
      obtain rfl : first = c := Option.some.inj hc
      -- Names are compared in lower case, which changes neither a digit nor a point.
      have hself : first.toLower = first := by
        rcases hstart with hdigit | rfl
        · exact toLower_eq_self_of_isDigit hdigit
        · rfl
      have hne : ∀ w : String, w.toList.head? = some 'i' ∨ w.toList.head? = some 'n' →
          String.ofList ((first :: rest).map Char.toLower) ≠ w := by
        rintro w hw rfl
        rw [String.toList_ofList, List.map_cons, List.head?_cons, hself] at hw
        rcases hw with hw | hw <;> cases hw <;> rcases hstart with h | h <;> cases h
      unfold named?
      split
      · next heq => exact absurd heq (hne _ (.inl rfl))
      · next heq => exact absurd heq (hne _ (.inl rfl))
      · next heq => exact absurd heq (hne _ (.inr rfl))
      · rfl

/-- A numeral with a sign or without one stands for a number. -/
theorem isNaN_float? (hcs : StartsNumeral cs) {sign : List Char}
    (hsign : sign = [] ∨ sign = ['-'] ∨ sign = ['+']) (h : float? (sign ++ cs) = some x) :
    x.isNaN = false := by
  have hunsigned : ∀ y, (named? cs).or (unsignedFloat? cs) = some y → y.isNaN = false := by
    intro y hy
    rw [named?_eq_none hcs] at hy
    exact isNaN_unsignedFloat? hy
  rcases hsign with rfl | rfl | rfl
  · obtain ⟨c, hc, hstart⟩ := hcs
    cases cs with
    | nil => cases hc
    | cons first rest =>
        obtain rfl : first = c := Option.some.inj hc
        rw [List.nil_append] at h
        unfold float? at h
        split at h
        · next heq => cases heq; rcases hstart with h | h <;> cases h
        · next heq => cases heq; rcases hstart with h | h <;> cases h
        · exact hunsigned x h
  · obtain ⟨y, hy, rfl⟩ := Option.map_eq_some_iff.mp h
    exact isNaN_neg (hunsigned y hy)
  · exact hunsigned x h

end DocStore.Decimal
