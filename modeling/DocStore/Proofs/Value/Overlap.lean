import DocStore.Eval.Containment
import DocStore.Proofs.Value.Tree

/-!
# Having something in common

Main statement: `overlaps_comm`.  Whether two values overlap does not depend on which comes first.

It rests on loose equality being symmetric (`looselyEquals_comm`).  Of two objects only the names of
the first are gone through; if these are as many as those of the second, and all among them, they are
all there are.
-/

namespace DocStore.Value

variable {v w : Value} {xs ys : List Value} {ms ns : List (String × Value)}

/-! ## Floating-point numbers -/

open Float.Model in
theorem compare_unpacked_swap (x y : UnpackedFloat) :
    x.compare y = (y.compare x).map Ordering.swap := by
  cases x with
  | notANumber => cases y <;> rfl
  | infinity s =>
      cases s <;> cases y with
      | infinity t => cases t <;> rfl
      | _ => rfl
  | zero s =>
      cases y with
      | infinity t | finite t => cases t <;> rfl
      | _ => rfl
  | finite s m e hm =>
      cases y with
      | finite t n f hn =>
          have hexponents : compare e f = (compare f e).swap := Std.OrientedCmp.eq_swap
          have hmantissas : compare m n = (compare n m).swap := Std.OrientedCmp.eq_swap
          have hsizes : (compare e f).then (compare m n)
              = ((compare f e).then (compare n m)).swap := by
            rw [hexponents, hmantissas, Ordering.swap_then]
          -- Of two negative numbers the larger one in size comes first.
          cases s with
          | negative =>
              cases t with
              | negative => exact congrArg (fun order => some order.swap) hsizes
              | positive => rfl
          | positive =>
              cases t with
              | negative => rfl
              | positive => exact congrArg some hsizes
      | infinity t => cases s <;> cases t <;> rfl
      | _ => cases s <;> rfl

theorem beq_float_comm (x y : Float) : (x == y) = (y == x) := by
  show (x.toModel.unpack.compare y.toModel.unpack == some .eq)
    = (y.toModel.unpack.compare x.toModel.unpack == some .eq)
  rw [compare_unpacked_swap]
  cases y.toModel.unpack.compare x.toModel.unpack with
  | none => rfl
  | some order => cases order <;> rfl

/-! ## Loose equality -/

theorem looselyEqualItems_symm (h : looselyEqualItems xs ys = true)
    (hsymm : ∀ x ∈ xs, ∀ y ∈ ys, x.looselyEquals y = true → y.looselyEquals x = true) :
    looselyEqualItems ys xs = true := by
  induction xs generalizing ys with
  | nil => cases ys <;> exact h
  | cons x xs ih =>
      cases ys with
      | nil => cases h
      | cons y ys =>
          obtain ⟨hxy, hrest⟩ := Bool.and_eq_true_iff.mp h
          refine Bool.and_eq_true_iff.mpr ⟨?_, ih hrest ?_⟩
          · exact hsymm x List.mem_cons_self y List.mem_cons_self hxy
          · exact fun x hx y hy => hsymm x (List.mem_cons_of_mem _ hx) y (List.mem_cons_of_mem _ hy)

theorem looselyEqualMembers_iff :
    looselyEqualMembers ms ns = true
      ↔ ∀ member ∈ ms, ∃ w, Assoc.get? ns member.1 = some w ∧ member.2.looselyEquals w = true := by
  induction ms with
  | nil => simp [looselyEqualMembers]
  | cons member rest ih =>
      obtain ⟨name, v⟩ := member
      rw [looselyEqualMembers, Bool.and_eq_true, ih, List.forall_mem_cons]
      cases Assoc.get? ns name <;> simp

theorem looselyEquals_symm (hv : v.hasDistinctNames = true) (hw : w.hasDistinctNames = true)
    (h : v.looselyEquals w = true) : w.looselyEquals v = true := by
  induction v using tree_induction generalizing w with
  | arr xs ih =>
      cases w with
      | arr ys =>
          have hxs := hasDistinctNames_arr.mp hv
          have hys := hasDistinctNames_arr.mp hw
          exact looselyEqualItems_symm h fun x hx y hy => ih x hx (hxs x hx) (hys y hy)
      | _ => simp [looselyEquals, BEq.beq, same] at h
  | obj ms ih =>
      cases w with
      | obj ns =>
          obtain ⟨hnames, hvalues⟩ := hasDistinctNames_obj.mp hv
          obtain ⟨hnames', hvalues'⟩ := hasDistinctNames_obj.mp hw
          obtain ⟨hlength, hmembers⟩ := Bool.and_eq_true_iff.mp h
          have hlength := beq_iff_eq.mp hlength
          have hfound := looselyEqualMembers_iff.mp hmembers
          have hsub : ∀ name ∈ Assoc.keys ms, name ∈ Assoc.keys ns := by
            intro name hname
            obtain ⟨member, hmember, rfl⟩ := List.mem_map.mp hname
            obtain ⟨w, hget, -⟩ := hfound member hmember
            exact Assoc.mem_keys_of_mem (Assoc.mem_of_get? hget)
          refine Bool.and_eq_true_iff.mpr ⟨beq_iff_eq.mpr hlength.symm, ?_⟩
          refine looselyEqualMembers_iff.mpr fun member hmember => ?_
          have hname := Assoc.mem_keys_of_subset hnames hlength hsub (Assoc.mem_keys_of_mem hmember)
          obtain ⟨other, hother, heq⟩ := List.mem_map.mp hname
          obtain ⟨w, hget, hloose⟩ := hfound other hother
          rw [heq, Assoc.get?_of_mem hnames' hmember] at hget
          cases hget
          refine ⟨other.2, heq ▸ Assoc.get?_of_mem hnames hother, ?_⟩
          exact ih other hother (hvalues other hother) (hvalues' member hmember) hloose
      | _ => simp [looselyEquals, BEq.beq, same] at h
  | float x =>
      cases w with
      | float y => exact (beq_float_comm y x).trans h
      | int i | uint n => exact h
      | _ => cases h
  | _ => cases w <;> simp_all [looselyEquals, BEq.beq, same]

theorem looselyEquals_comm (hv : v.hasDistinctNames = true) (hw : w.hasDistinctNames = true) :
    v.looselyEquals w = w.looselyEquals v :=
  Bool.eq_iff_iff.mpr ⟨looselyEquals_symm hv hw, looselyEquals_symm hw hv⟩

/-! ## Overlapping -/

/-- Objects overlap if they have a member of one name with loosely equal values. -/
theorem overlaps_obj_iff (hms : (Assoc.keys ms).Nodup) :
    (obj ms).overlaps (.obj ns) = true
      ↔ ∃ name v w, Assoc.get? ms name = some v ∧ Assoc.get? ns name = some w
        ∧ w.looselyEquals v = true := by
  rw [overlaps, List.any_eq_true]
  constructor
  · rintro ⟨⟨name, v⟩, hmember, h⟩
    cases hget : Assoc.get? ns name with
    | none => simp [hget] at h
    | some w => exact ⟨name, v, w, Assoc.get?_of_mem hms hmember, hget, by simpa [hget] using h⟩
  · rintro ⟨name, v, w, hv, hw, h⟩
    exact ⟨(name, v), Assoc.mem_of_get? hv, by simpa [hw] using h⟩

/-- Unless both are objects, values overlap if an element of the one loosely equals one of the other. -/
theorem overlaps_iff_of_elements (h : ∀ ms ns, v = .obj ms → w ≠ .obj ns) :
    v.overlaps w = true ↔ ∃ x ∈ v.elements, ∃ y ∈ w.elements, x.looselyEquals y = true := by
  have hunfold : v.overlaps w = v.elements.any fun x => w.elements.any fun y => x.looselyEquals y := by
    cases v <;> cases w <;> first | rfl | exact absurd rfl (h _ _ rfl)
  simp only [hunfold, List.any_eq_true]

theorem hasDistinctNames_elements (hv : v.hasDistinctNames = true) :
    ∀ x ∈ v.elements, x.hasDistinctNames = true := by
  cases v with
  | arr items => exact hasDistinctNames_arr.mp hv
  | _ => exact fun x hx => List.mem_singleton.mp hx ▸ hv

theorem overlaps_symm (hv : v.hasDistinctNames = true) (hw : w.hasDistinctNames = true)
    (h : v.overlaps w = true) : w.overlaps v = true := by
  by_cases hobjects : ∃ ms ns, v = .obj ms ∧ w = .obj ns
  · obtain ⟨ms, ns, rfl, rfl⟩ := hobjects
    obtain ⟨hms, hvalues⟩ := hasDistinctNames_obj.mp hv
    obtain ⟨hns, hvalues'⟩ := hasDistinctNames_obj.mp hw
    obtain ⟨name, a, b, ha, hb, hloose⟩ := (overlaps_obj_iff hms).mp h
    refine (overlaps_obj_iff hns).mpr ⟨name, b, a, hb, ha, ?_⟩
    exact looselyEquals_symm (hvalues' _ (Assoc.mem_of_get? hb)) (hvalues _ (Assoc.mem_of_get? ha))
      hloose
  · have hne : ∀ ms ns, v = .obj ms → w ≠ .obj ns := fun ms ns hv hw => hobjects ⟨ms, ns, hv, hw⟩
    obtain ⟨x, hx, y, hy, hloose⟩ := (overlaps_iff_of_elements hne).mp h
    refine (overlaps_iff_of_elements fun ns ms hw hv => hne ms ns hv hw).mpr ⟨y, hy, x, hx, ?_⟩
    exact looselyEquals_symm (hasDistinctNames_elements hv x hx) (hasDistinctNames_elements hw y hy)
      hloose

theorem overlaps_comm (hv : v.hasDistinctNames = true) (hw : w.hasDistinctNames = true) :
    v.overlaps w = w.overlaps v :=
  Bool.eq_iff_iff.mpr ⟨overlaps_symm hv hw, overlaps_symm hw hv⟩

end DocStore.Value
