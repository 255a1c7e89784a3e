import DocStore.Eval.Containment
import DocStore.Proofs.Value.Tree

/-!
# Containment as an order

Main statements: `contains_self`, `contains_trans` and `contains_append`.  Among values without
floating-point numbers, containment is reflexive and transitive, and an array that grows contains what
it contained before.

With floating-point numbers it would not be transitive: two large integers may be equal to the same
one.
-/

namespace DocStore.Value

variable {a b c v w : Value} {xs ys ws : List Value} {ms ns : Document}

/-! ## The clauses -/

attribute [local simp] contains looselyEquals same

theorem anyContains_iff : anyContains xs w = true ↔ ∃ x ∈ xs, x.contains w = true := by
  induction xs with
  | nil => simp [anyContains]
  | cons x rest ih => rw [anyContains, Bool.or_eq_true, ih, List.exists_mem_cons_iff]

theorem memberContains_iff {name : String} :
    memberContains ms name w = true
      ↔ ∃ v, Assoc.get? ms name = some v ∧ v.contains w = true := by
  induction ms with
  | nil => simp [memberContains, Assoc.get?]
  | cons member rest ih =>
      obtain ⟨key, v⟩ := member
      rw [memberContains, Assoc.get?]
      split
      · simp
      · exact ih

/-- An array contains what is in its items, element by element. -/
theorem contains_arr :
    (arr xs).contains w = true ↔ ∀ u ∈ w.elements, ∃ x ∈ xs, x.contains u = true := by
  cases w with
  | arr ws => simp only [contains, elements, List.all_eq_true, anyContains_iff]
  | _ => simp only [contains, elements, List.forall_mem_singleton, anyContains_iff]

theorem contains_obj_obj :
    (obj ms).contains (.obj ns) = true
      ↔ ∀ member ∈ ns, ∃ v, Assoc.get? ms member.1 = some v ∧ v.contains member.2 = true := by
  simp only [contains, List.all_eq_true, memberContains_iff]

theorem null_contains (v : Value) : null.contains v = v.isNull := by
  cases v <;> simp [BEq.beq, isNull]

/-- Only objects are contained in an object. -/
theorem exists_of_obj_contains (h : (obj ms).contains w = true) : ∃ ns, w = .obj ns := by
  cases w with
  | obj ns => exact ⟨ns, rfl⟩
  | _ => simp [BEq.beq] at h

/-- A value that is neither array nor object contains itself alone. -/
theorem eq_of_contains (ha : a.hasFloat = false) (hb : b.hasFloat = false)
    (hitems : a.items? = none) (hmembers : a.members? = none) (h : a.contains b = true) :
    a = b := by
  cases a with
  | arr xs => cases hitems
  | obj ms => cases hmembers
  | float x => cases ha
  | _ =>
      cases b with
      | float y => cases hb
      | _ => simp_all [BEq.beq]

/-- Each element of what is contained is in an element of what contains it. -/
theorem exists_element_of_contains (h : a.contains b = true) :
    ∀ u ∈ b.elements, ∃ x ∈ a.elements, x.contains u = true := by
  cases a with
  | arr xs => exact contains_arr.mp h
  | _ =>
      -- No array is contained in a value that is none.
      cases b with
      | arr ws => simp [BEq.beq] at h
      | _ => exact fun u hu => ⟨_, List.mem_singleton_self _, List.mem_singleton.mp hu ▸ h⟩

theorem hasFloat_elements (h : v.hasFloat = false) : ∀ x ∈ v.elements, x.hasFloat = false := by
  cases v with
  | arr items => exact hasFloat_arr.mp h
  | _ => exact fun x hx => List.mem_singleton.mp hx ▸ h

/-! ## The order -/

theorem contains_self (hnames : v.hasDistinctNames = true) (hfloat : v.hasFloat = false) :
    v.contains v = true := by
  induction v using tree_induction with
  | arr items ih =>
      have hnames := hasDistinctNames_arr.mp hnames
      have hfloat := hasFloat_arr.mp hfloat
      exact contains_arr.mpr fun w hw => ⟨w, hw, ih w hw (hnames w hw) (hfloat w hw)⟩
  | obj members ih =>
      obtain ⟨hkeys, hnames⟩ := hasDistinctNames_obj.mp hnames
      have hfloat := hasFloat_obj.mp hfloat
      refine contains_obj_obj.mpr fun member hmember => ?_
      exact ⟨member.2, Assoc.get?_of_mem hkeys hmember,
        ih member hmember (hnames member hmember) (hfloat member hmember)⟩
  | float x => cases hfloat
  | _ => simp [BEq.beq]

/-- With `b` between them, `a` contains `c`.  Whether `c` has a floating-point number in it does not
matter. -/
theorem contains_trans (ha : a.hasFloat = false) (hb : b.hasFloat = false)
    (hab : a.contains b = true) (hbc : b.contains c = true) : a.contains c = true := by
  induction a using tree_induction generalizing b c with
  | arr xs ih =>
      have hxs := hasFloat_arr.mp ha
      rw [contains_arr] at hab ⊢
      intro u hu
      obtain ⟨y, hy, hyu⟩ := exists_element_of_contains hbc u hu
      obtain ⟨x, hx, hxy⟩ := hab y hy
      exact ⟨x, hx, ih x hx (hxs x hx) (hasFloat_elements hb y hy) hxy hyu⟩
  | obj ms ih =>
      obtain ⟨ns, rfl⟩ := exists_of_obj_contains hab
      obtain ⟨ls, rfl⟩ := exists_of_obj_contains hbc
      have hms := hasFloat_obj.mp ha
      have hns := hasFloat_obj.mp hb
      rw [contains_obj_obj] at hab hbc ⊢
      intro member hmember
      obtain ⟨w, hw, hwc⟩ := hbc member hmember
      have hw := Assoc.mem_of_get? hw
      obtain ⟨v, hv, hvw⟩ := hab _ hw
      exact ⟨v, hv, ih _ (Assoc.mem_of_get? hv) (hms _ (Assoc.mem_of_get? hv)) (hns _ hw) hvw hwc⟩
  | _ =>
      cases eq_of_contains ha hb rfl rfl hab
      exact hbc

/-- An array contains what an array of some of its items contains. -/
theorem contains_arr_of_subset (hsub : xs ⊆ ys) (h : (arr xs).contains w = true) :
    (arr ys).contains w = true := by
  rw [contains_arr] at h ⊢
  intro u hu
  obtain ⟨x, hx, hxu⟩ := h u hu
  exact ⟨x, hsub hx, hxu⟩

end DocStore.Value
