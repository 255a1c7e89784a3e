import DocStore.Eval
import DocStore.Proofs.Rounding

/-!
# Integer arithmetic

Main statement: `Expr.integers_exact_iff`.  Sums, differences, products, opposites and magnitudes of
integers are exact where 64 bits hold them and floating-point numbers otherwise.  A remainder is always
exact but for one: the least integer has the remainder zero by minus one, and yet it is computed in
floating-point numbers, as the quotient, which is not asked for, would be too large (`minValue_mod`).
-/

namespace DocStore

namespace Arithmetic

variable {n : Int} {x : Float} {a b : Int64}

/-! ## The range of integers -/

/-- An integer that fits 64 bits with a sign. -/
def Fits (n : Int) : Prop := Int64.minValue.toInt ≤ n ∧ n ≤ Int64.maxValue.toInt

instance : Decidable (Fits n) := inferInstanceAs (Decidable (_ ∧ _))

theorem fits?_of_fits (h : Fits n) : fits? n = some (.ofInt n) := if_pos h

theorem fits?_of_not_fits (h : ¬ Fits n) : fits? n = none := if_neg h

theorem fits_toInt (i : Int64) : Fits i.toInt := ⟨Int64.minValue_le_toInt i, Int64.toInt_le i⟩

theorem toInt_ofInt_of_fits (h : Fits n) : (Int64.ofInt n).toInt = n :=
  Int64.toInt_ofInt_of_le h.1 (Int.lt_of_le_sub_one h.2)

/-- A remainder lies between zero and the dividend. -/
theorem fits_tmod (a b : Int64) : Fits (a.toInt.tmod b.toInt) := by
  obtain ⟨hlow, hhigh⟩ := fits_toInt a
  have hsize : (a.toInt.tmod b.toInt).natAbs ≤ a.toInt.natAbs := by
    rw [Int.natAbs_tmod]
    exact Nat.mod_le _ _
  have hmin : Int64.minValue.toInt < 0 := by decide
  have hmax : 0 < Int64.maxValue.toInt := by decide
  rcases Int.le_total 0 a.toInt with hsign | hsign
  · have hrest := Int.tmod_nonneg b.toInt hsign
    exact ⟨by omega, by omega⟩
  · have hrest := Int.tmod_nonneg b.toInt (Int.neg_nonneg.mpr hsign)
    rw [Int.neg_tmod] at hrest
    exact ⟨by omega, by omega⟩

/-! ## Exact results -/

/-- The result is the integer `n` where 64 bits hold it, and the floating-point number `x` otherwise. -/
structure IsExact (n : Int) (x : Float) (result : Except DocError Value) : Prop where
  fits : Fits n → ∃ i : Int64, result = .ok (.int i) ∧ i.toInt = n
  exceeds : ¬ Fits n → result = .ok (.float x)

theorem isExact_ofOption :
    IsExact n x (.ok (match fits? n with | some i => .int i | none => .float x)) where
  fits h := ⟨_, by rw [fits?_of_fits h], toInt_ofInt_of_fits h⟩
  exceeds h := by rw [fits?_of_not_fits h]

theorem isExact_combine {onInts : Int64 → Int64 → Option Int64} {onFloats : Float → Float → Float}
    (h : onInts a b = fits? n) :
    IsExact n (onFloats (Value.floatOfInt64 a) (Value.floatOfInt64 b))
      (.ok (combine onInts onFloats (.int a) (.int b))) := by
  rw [combine, h]
  exact isExact_ofOption

theorem isExact_negate (a : Int64) :
    IsExact (-a.toInt) (-(Value.floatOfInt64 a)) (.ok (negate (.int a))) := isExact_ofOption

theorem isExact_absolute (a : Int64) :
    IsExact a.toInt.natAbs (Value.floatOfInt64 a).abs (.ok (absolute (.int a))) := isExact_ofOption

/-! ## Remainders -/

theorem binary_mod (hb : b ≠ 0) :
    binary .mod (.int a) (.int b) = combine remainder? Decimal.remainder (.int a) (.int b) := by
  have hzero : ¬ ((Number.int b).toFloat == 0.0) = true :=
    Bool.eq_false_iff.mp (Value.floatOfInt64_beq_zero hb)
  exact if_neg hzero

/-- The quotient of the least integer by minus one does not fit, and it is taken for the remainder. -/
theorem binary_mod_minValue :
    binary .mod (.int Int64.minValue) (.int (-1))
      = .float (Decimal.remainder (Value.floatOfInt64 Int64.minValue) (Value.floatOfInt64 (-1))) :=
  binary_mod (by decide)

theorem isExact_mod_iff (hb : b ≠ 0) :
    IsExact (a.toInt.tmod b.toInt)
        (Decimal.remainder (Value.floatOfInt64 a) (Value.floatOfInt64 b))
        (.ok (binary .mod (.int a) (.int b)))
      ↔ ¬ (a = Int64.minValue ∧ b = -1) := by
  constructor
  · rintro hexact ⟨rfl, rfl⟩
    obtain ⟨i, hi, -⟩ := hexact.fits (fits_tmod _ _)
    rw [binary_mod_minValue] at hi
    cases hi
  · intro hne
    rw [binary_mod hb]
    exact isExact_combine (if_neg hne)

end Arithmetic

/-! ## Expressions -/

namespace Expr

open Arithmetic

variable {l r : Expr} {scope : Scope} {v w : Value} {name : FunctionName} {a b : Int64}

theorem eval_binary {op : BinaryOp} (hop : op.isLogical = false) (hl : l.eval scope = .ok v)
    (hr : r.eval scope = .ok w) : (binary op l r).eval scope = .ok (Arithmetic.binary op v w) := by
  cases op <;> first | (simp only [eval, hl, hr]; rfl) | cases hop

theorem eval_unary {op : UnaryOp} (hl : l.eval scope = .ok v) :
    (unary op l).eval scope = .ok (Arithmetic.unary op v) := by
  simp only [eval, hl]
  rfl

theorem eval_abs (hname : name.name.toLower = "abs") (hl : l.eval scope = .ok v) :
    (call name [l]).eval scope = .ok ((Number.ofValue? v).elim .null absolute) := by
  have haggregate : name.isAggregate = false := by
    rw [FunctionName.isAggregate, hname]
    rfl
  simp only [eval, haggregate, Bool.false_eq_true, if_false, hname, evalList, hl]
  rfl

/-- Arithmetic of integers is exact where 64 bits hold the result, and gives a floating-point number
where they do not; a remainder, which they always hold, unless it is the one of the least integer by
minus one. -/
theorem integers_exact_iff (hname : name.name.toLower = "abs")
    (hl : l.eval scope = .ok (.int a)) (hr : r.eval scope = .ok (.int b)) :
    IsExact (a.toInt + b.toInt) (Value.floatOfInt64 a + Value.floatOfInt64 b)
        ((binary .add l r).eval scope) ∧
      IsExact (a.toInt - b.toInt) (Value.floatOfInt64 a - Value.floatOfInt64 b)
        ((binary .sub l r).eval scope) ∧
      IsExact (a.toInt * b.toInt) (Value.floatOfInt64 a * Value.floatOfInt64 b)
        ((binary .mul l r).eval scope) ∧
      IsExact (-a.toInt) (-(Value.floatOfInt64 a)) ((unary .neg l).eval scope) ∧
      IsExact a.toInt.natAbs (Value.floatOfInt64 a).abs ((call name [l]).eval scope) ∧
      (b ≠ 0 →
        (IsExact (a.toInt.tmod b.toInt)
            (Decimal.remainder (Value.floatOfInt64 a) (Value.floatOfInt64 b))
            ((binary .mod l r).eval scope)
          ↔ ¬ (a = Int64.minValue ∧ b = -1))) := by
  rw [eval_binary rfl hl hr, eval_binary rfl hl hr, eval_binary rfl hl hr, eval_binary rfl hl hr,
    eval_unary hl, eval_abs hname hl]
  have hadd : IsExact _ _ (.ok (combine (fun a b => fits? (a.toInt + b.toInt)) (· + ·) _ _)) :=
    isExact_combine (a := a) (b := b) rfl
  have hsub : IsExact _ _ (.ok (combine (fun a b => fits? (a.toInt - b.toInt)) (· - ·) _ _)) :=
    isExact_combine (a := a) (b := b) rfl
  have hmul : IsExact _ _ (.ok (combine (fun a b => fits? (a.toInt * b.toInt)) (· * ·) _ _)) :=
    isExact_combine (a := a) (b := b) rfl
  exact ⟨hadd, hsub, hmul, isExact_negate a, isExact_absolute a, isExact_mod_iff⟩

/-- The least integer and seven, in all six operations. -/
theorem integers_exact_iff_least :
    let least : Expr := .literal (.int Int64.minValue)
    let seven : Expr := .literal (.int 7)
    let scope : Scope := .row (.obj [])
    least.eval scope = .ok (.int Int64.minValue) ∧ seven.eval scope = .ok (.int 7) ∧
      (∃ i : Int64, (binary .add least seven).eval scope = .ok (.int i) ∧
        i.toInt = -9223372036854775801) ∧
      (∃ x, (binary .sub least seven).eval scope = .ok (.float x)) ∧
      (∃ x, (binary .mul least seven).eval scope = .ok (.float x)) ∧
      (∃ x, (unary .neg least).eval scope = .ok (.float x)) ∧
      (∃ x, (call ⟨none, "ABS"⟩ [least]).eval scope = .ok (.float x)) ∧
      ∃ i : Int64, (binary .mod least seven).eval scope = .ok (.int i) ∧ i.toInt = -1 := by
  intro least seven scope
  have hname : (FunctionName.mk none "ABS").name.toLower = "abs" := by decide +kernel
  have hleast : least.eval scope = .ok (.int Int64.minValue) := rfl
  have hseven : seven.eval scope = .ok (.int 7) := rfl
  obtain ⟨hadd, hsub, hmul, hneg, habs, hmod⟩ := integers_exact_iff hname hleast hseven
  exact ⟨hleast, hseven, hadd.fits (by decide), ⟨_, hsub.exceeds (by decide)⟩,
    ⟨_, hmul.exceeds (by decide)⟩, ⟨_, hneg.exceeds (by decide)⟩, ⟨_, habs.exceeds (by decide)⟩,
    ((hmod (by decide)).mpr (by decide)).fits (by decide)⟩

/-- The remainder of the least integer by minus one is zero, but what comes out is no integer. -/
theorem minValue_mod :
    let least : Expr := .literal (.int Int64.minValue)
    let minusOne : Expr := .literal (.int (-1))
    let scope : Scope := .row (.obj [])
    least.eval scope = .ok (.int Int64.minValue) ∧ minusOne.eval scope = .ok (.int (-1)) ∧
      Int64.minValue.toInt.tmod (-1 : Int64).toInt = 0 ∧ Fits 0 ∧
      ∃ x, (binary .mod least minusOne).eval scope = .ok (.float x) := by
  intro least minusOne scope
  have hleast : least.eval scope = .ok (.int Int64.minValue) := rfl
  have hminusOne : minusOne.eval scope = .ok (.int (-1)) := rfl
  have hmod : (binary .mod least minusOne).eval scope = _ := eval_binary rfl hleast hminusOne
  rw [binary_mod_minValue] at hmod
  exact ⟨hleast, hminusOne, by decide, by decide, _, hmod⟩

end Expr

end DocStore
