import DocStore.Proofs.Eval.Arithmetic
import DocStore.Proofs.Outcome
import Mathlib

/-!
# Sums of integers

Main statement: `sum_of_integers`.  The sum of integers is exact as long as no partial sum, in the
order of the rows, leaves the range of 64 bits; if one does, it is a floating-point number, also where
the whole sum would fit again.  So the sum may depend on the order of the rows
(`sum_leaves_range`), unless what is gained and what is lost both fit.
-/

namespace DocStore

namespace Function

open Arithmetic

variable {start : Int} {ints : List Int}

/-! ## Partial sums -/

/-- No partial sum leaves the range, counted from a number that they start with. -/
def TotalsFit (start : Int) (ints : List Int) : Prop :=
  ∀ count, Fits (start + (ints.take count).sum)

theorem totalsFit_nil : TotalsFit start [] ↔ Fits start := by
  simp [TotalsFit]

theorem totalsFit_cons {n : Int} :
    TotalsFit start (n :: ints) ↔ Fits start ∧ TotalsFit (start + n) ints := by
  have hsucc : ∀ count, start + ((n :: ints).take (count + 1)).sum
      = start + n + (ints.take count).sum := fun count => by
    rw [List.take_succ_cons, List.sum_cons, Int.add_assoc]
  constructor
  · intro h
    refine ⟨?_, fun count => hsucc count ▸ h (count + 1)⟩
    simpa using h 0
  · rintro ⟨hstart, h⟩ count
    cases count with
    | zero => simpa using hstart
    | succ count => exact (hsucc count).symm ▸ h count

theorem fits_of_totalsFit (h : TotalsFit start ints) : Fits start := by
  simpa using h 0

theorem foldl_addTo_none (numbers : List Number) : numbers.foldl addTo none = none := by
  induction numbers with
  | nil => rfl
  | cons n rest ih => cases n <;> exact ih

theorem addTo_int (total i : Int64) : addTo (some total) (.int i) = fits? (total.toInt + i.toInt) :=
  rfl

theorem foldl_addTo_of_totalsFit {total : Int64} {addends : List Int64}
    (h : TotalsFit total.toInt (addends.map Int64.toInt)) :
    (addends.map Number.int).foldl addTo (some total)
      = some (.ofInt (total.toInt + (addends.map Int64.toInt).sum)) := by
  induction addends generalizing total with
  | nil =>
      rw [List.map_nil, List.map_nil, List.sum_nil, Int.add_zero, Int64.ofInt_toInt]
      rfl
  | cons i rest ih =>
      obtain ⟨-, h⟩ := totalsFit_cons.mp h
      have hnext : Fits (total.toInt + i.toInt) := fits_of_totalsFit h
      rw [List.map_cons, List.foldl_cons, addTo_int, fits?_of_fits hnext, ih, toInt_ofInt_of_fits hnext,
        List.map_cons, List.sum_cons, Int.add_assoc]
      rw [toInt_ofInt_of_fits hnext]
      exact h

theorem foldl_addTo_of_not_totalsFit {total : Int64} {addends : List Int64}
    (h : ¬ TotalsFit total.toInt (addends.map Int64.toInt)) :
    (addends.map Number.int).foldl addTo (some total) = none := by
  induction addends generalizing total with
  | nil => exact absurd (totalsFit_nil.mpr (fits_toInt total)) h
  | cons i rest ih =>
      have hrest : ¬ TotalsFit (total.toInt + i.toInt) (rest.map Int64.toInt) :=
        fun hrest => h (totalsFit_cons.mpr ⟨fits_toInt total, hrest⟩)
      rw [List.map_cons, List.foldl_cons, addTo_int]
      by_cases hnext : Fits (total.toInt + i.toInt)
      · rw [fits?_of_fits hnext]
        exact ih (by rwa [toInt_ofInt_of_fits hnext])
      · rw [fits?_of_not_fits hnext]
        exact foldl_addTo_none _

/-! ## Sums of values -/

variable {addends : List Int64}

theorem filterMap_ofValue? (addends : List Int64) :
    (addends.map Value.int).filterMap Number.ofValue? = addends.map Number.int := by
  rw [List.filterMap_map]
  exact List.filterMap_eq_map ▸ rfl

theorem sum_of_totalsFit (h : TotalsFit 0 (addends.map Int64.toInt)) :
    sum (addends.map Value.int) = .int (.ofInt (addends.map Int64.toInt).sum) := by
  have htotal := foldl_addTo_of_totalsFit (show TotalsFit (0 : Int64).toInt _ from h)
  rw [sum, filterMap_ofValue?, htotal, Int64.toInt_zero, Int.zero_add]

theorem sum_of_not_totalsFit (h : ¬ TotalsFit 0 (addends.map Int64.toInt)) :
    sum (addends.map Value.int)
      = .float (addends.foldl (fun total i => total + Value.floatOfInt64 i) 0.0) := by
  have htotal := foldl_addTo_of_not_totalsFit (show ¬ TotalsFit (0 : Int64).toInt _ from h)
  rw [sum, filterMap_ofValue?, htotal, List.foldl_map]
  rfl

/-! ## Gains and losses -/

/-- The sum of what is positive. -/
def gains (ints : List Int) : Int := (ints.filter (0 < ·)).sum

/-- The sum of what is negative. -/
def losses (ints : List Int) : Int := (ints.filter (· < 0)).sum

theorem gains_cons (n : Int) (ints : List Int) : gains (n :: ints) = max n 0 + gains ints := by
  unfold gains
  by_cases h : 0 < n
  · rw [List.filter_cons_of_pos (by simpa using h), List.sum_cons]
    omega
  · rw [List.filter_cons_of_neg (by simpa using h)]
    omega

theorem losses_cons (n : Int) (ints : List Int) : losses (n :: ints) = min n 0 + losses ints := by
  unfold losses
  by_cases h : n < 0
  · rw [List.filter_cons_of_pos (by simpa using h), List.sum_cons]
    omega
  · rw [List.filter_cons_of_neg (by simpa using h)]
    omega

theorem sum_take_between (ints : List Int) (count : Nat) :
    losses ints ≤ (ints.take count).sum ∧ (ints.take count).sum ≤ gains ints := by
  induction ints generalizing count with
  | nil => simp [gains, losses]
  | cons n rest ih =>
      rw [gains_cons, losses_cons]
      cases count with
      | zero =>
          have hrest := ih 0
          rw [List.take_zero] at hrest ⊢
          omega
      | succ count =>
          have hrest := ih count
          rw [List.take_succ_cons, List.sum_cons]
          omega

theorem totalsFit_of_gains (hgains : Fits (gains ints)) (hlosses : Fits (losses ints)) :
    TotalsFit 0 ints := by
  intro count
  obtain ⟨hlow, hhigh⟩ := sum_take_between ints count
  rw [Int.zero_add]
  exact ⟨Int.le_trans hlosses.1 hlow, Int.le_trans hhigh hgains.2⟩

theorem gains_perm {order : List Int} (h : order.Perm ints) : gains order = gains ints :=
  (h.filter _).sum_eq

theorem losses_perm {order : List Int} (h : order.Perm ints) : losses order = losses ints :=
  (h.filter _).sum_eq

end Function

/-! ## The aggregate -/

namespace Expr

open Arithmetic

variable {name : FunctionName} {arg : Expr} {rows : List Value} {aliases : Option Document}
  {amount : Value → Option Int64}

/-- The values of the rows that are not null. -/
theorem filter_ofOption (rows : List Value) (amount : Value → Option Int64) :
    (rows.map fun row => Value.ofOption ((amount row).map .int)).filter (fun v => !v.isNull)
      = (rows.filterMap amount).map .int := by
  induction rows with
  | nil => rfl
  | cons row rest ih =>
      rw [List.map_cons, List.filterMap_cons]
      cases amount row with
      | none => exact ih
      | some i => exact congrArg (.int i :: ·) ih

theorem eval_sum (hname : name.name.toLower = "sum")
    (hvalues : ∀ row ∈ rows, arg.eval (.row row) = .ok (.ofOption ((amount row).map .int)))
    (hsome : rows.filterMap amount ≠ []) :
    (call name [arg]).eval (.group rows aliases)
      = .ok (Function.sum ((rows.filterMap amount).map .int)) := by
  have haggregate : name.isAggregate = true := by
    rw [FunctionName.isAggregate, hname]
    rfl
  have hmapM : rows.mapM (fun row => arg.eval (.row row)) = .ok _ := Outcome.mapM_eq_ok_map hvalues
  obtain ⟨i, rest, hcons⟩ := List.exists_cons_of_ne_nil hsome
  have hcount : ("sum" == "count") = false := rfl
  simp only [eval, haggregate, if_true, hname, evalAggregate, hcount, Bool.false_and,
    Bool.false_eq_true, if_false, hmapM]
  show Except.ok (Function.aggregate "sum" _) = _
  rw [filter_ofOption, hcons]
  rfl

/-- The integers among the values of rows, in their order. -/
def integersIn (amount : Value → Option Int64) (rows : List Value) : List Int :=
  (rows.filterMap amount).map Int64.toInt

theorem eval_sum_of_totalsFit (hname : name.name.toLower = "sum")
    (hvalues : ∀ row ∈ rows, arg.eval (.row row) = .ok (.ofOption ((amount row).map .int)))
    (hsome : rows.filterMap amount ≠ []) (hfit : Function.TotalsFit 0 (integersIn amount rows)) :
    ∃ total : Int64, (call name [arg]).eval (.group rows aliases) = .ok (.int total)
      ∧ total.toInt = (integersIn amount rows).sum := by
  have hsum : Fits (integersIn amount rows).sum := by
    have hall := hfit (integersIn amount rows).length
    rwa [List.take_length, Int.zero_add] at hall
  refine ⟨.ofInt (integersIn amount rows).sum, ?_, toInt_ofInt_of_fits hsum⟩
  rw [eval_sum hname hvalues hsome, Function.sum_of_totalsFit hfit]
  rfl

/-- A sum of integers is exact if all partial sums fit, in the order of the rows.  If one does not, it
is the sum of floating-point numbers.  Where all that is gained fits and all that is lost, it is exact
in whatever order the rows come. -/
theorem sum_of_integers (hname : name.name.toLower = "sum")
    (hvalues : ∀ row ∈ rows, arg.eval (.row row) = .ok (.ofOption ((amount row).map .int)))
    (hsome : rows.filterMap amount ≠ []) :
    ((∀ count, Fits ((integersIn amount rows).take count).sum) →
      ∃ total : Int64, (call name [arg]).eval (.group rows aliases) = .ok (.int total)
        ∧ total.toInt = (integersIn amount rows).sum) ∧
    ((¬ ∀ count, Fits ((integersIn amount rows).take count).sum) →
      (call name [arg]).eval (.group rows aliases)
        = .ok (.float ((rows.filterMap amount).foldl
            (fun total i => total + Value.floatOfInt64 i) 0.0))) ∧
    (Fits (Function.gains (integersIn amount rows)) →
      Fits (Function.losses (integersIn amount rows)) → ∀ order : List Value, order.Perm rows →
      ∃ total : Int64, (call name [arg]).eval (.group order aliases) = .ok (.int total)
        ∧ total.toInt = (integersIn amount rows).sum) := by
  have htotals : Function.TotalsFit 0 (integersIn amount rows)
      ↔ ∀ count, Fits ((integersIn amount rows).take count).sum := by
    simp only [Function.TotalsFit, Int.zero_add]
  refine ⟨fun hfit => eval_sum_of_totalsFit hname hvalues hsome (htotals.mpr hfit), ?_, ?_⟩
  · intro hover
    rw [eval_sum hname hvalues hsome, Function.sum_of_not_totalsFit fun h => hover (htotals.mp h)]
  · intro hgains hlosses order horder
    have hints : (integersIn amount order).Perm (integersIn amount rows) :=
      (horder.filterMap amount).map Int64.toInt
    rw [← Function.gains_perm hints] at hgains
    rw [← Function.losses_perm hints] at hlosses
    rw [← hints.sum_eq]
    refine eval_sum_of_totalsFit hname (fun row hrow => hvalues row (horder.mem_iff.mp hrow)) ?_
      (Function.totalsFit_of_gains hgains hlosses)
    exact fun hnone => hsome (List.perm_nil.mp (hnone ▸ (horder.filterMap amount).symm))

/-- Rows with these integers under the name `x`, or with null. -/
def rowsX (amounts : List (Option Int64)) : List Value :=
  amounts.map fun amount => .obj [("x", .ofOption (amount.map .int))]

def amountX (row : Value) : Option Int64 :=
  match row.get? "x" with
  | some (.int i) => some i
  | _ => none

theorem eval_rowsX (amounts : List (Option Int64)) : ∀ row ∈ rowsX amounts,
    (field (.ofMember "x")).eval (.row row) = .ok (.ofOption ((amountX row).map .int)) := by
  intro row hrow
  obtain ⟨amount, -, rfl⟩ := List.mem_map.mp hrow
  cases amount <;> rfl

/-- Three sums: one whose partial sums fit, one that leaves the range on the way, and one that is the
same in whatever order. -/
theorem sum_of_integers_samples :
    let total : Expr := .call ⟨none, "SUM"⟩ [.field (.ofMember "x")]
    (∃ sum : Int64,
        total.eval (.group (rowsX [some (-1), none, some 9223372036854775807, some 1]) none)
          = .ok (.int sum) ∧ sum.toInt = 9223372036854775807) ∧
      (∃ x, total.eval (.group (rowsX [some 9223372036854775807, some 1, some (-1)]) none)
        = .ok (.float x)) ∧
      ∀ order : List Value, order.Perm (rowsX [some 8, some (-5), none, some (-4)]) →
        ∃ sum : Int64, total.eval (.group order none) = .ok (.int sum) ∧ sum.toInt = -1 := by
  intro total
  have hname : (FunctionName.mk none "SUM").name.toLower = "sum" := by decide +kernel
  have hfit : ∀ count, Fits (([-1, 9223372036854775807, 1] : List Int).take count).sum
    | 0 | 1 | 2 => by decide
    | count + 3 => by
        rw [List.take_of_length_le (Nat.le_add_left 3 count)]
        decide
  refine ⟨?_, ?_, ?_⟩
  · exact (sum_of_integers hname (eval_rowsX [some (-1), none, some 9223372036854775807, some 1])
      (by decide)).1 hfit
  · exact ⟨_, (sum_of_integers hname (eval_rowsX [some 9223372036854775807, some 1, some (-1)])
      (by decide)).2.1 fun h => absurd (h 2) (by decide)⟩
  · exact (sum_of_integers hname (eval_rowsX [some 8, some (-5), none, some (-4)])
      (by decide)).2.2 (by decide) (by decide)

/-- The integers of three rows add up to the largest integer, but with the second of them the sum has
left the range.  In another order it does not. -/
theorem sum_leaves_range :
    let rows := rowsX [some 9223372036854775807, some 1, some (-1)]
    let total : Expr := .call ⟨none, "sum"⟩ [.field (.ofMember "x")]
    (∀ row ∈ rows,
      (field (.ofMember "x")).eval (.row row) = .ok (.ofOption ((amountX row).map .int))) ∧
      integersIn amountX rows = [9223372036854775807, 1, -1] ∧
      Fits (integersIn amountX rows).sum ∧
      (∃ x, total.eval (.group rows none) = .ok (.float x)) ∧
      total.eval (.group rows.reverse none) = .ok (.int 9223372036854775807) := by
  intro rows total
  have hname : (FunctionName.mk none "sum").name.toLower = "sum" := by decide +kernel
  have hleaves : ¬ Function.TotalsFit 0 ((rows.filterMap amountX).map Int64.toInt) :=
    fun h => absurd (h 2) (by decide)
  have hfloat : total.eval (.group rows none) = .ok (.float _) :=
    (eval_sum hname (eval_rowsX _) (by decide)).trans
      (congrArg Except.ok (Function.sum_of_not_totalsFit hleaves))
  exact ⟨eval_rowsX _, rfl, by decide, ⟨_, hfloat⟩, by cbv⟩

end Expr

end DocStore
