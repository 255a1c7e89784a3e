import DocStore.Eval.Field
import DocStore.Proofs.Value.Same

/-!
# The tree of a value

A value is a scalar, an array of values or an object with values for its members: what passes from
all items to the array and from all members to the object holds of every value (`tree_induction`).
`hasFloat` asks for a floating-point number anywhere in a value.  Without one, numbers are exact.
-/

namespace DocStore.Value

variable {items : List Value} {members : List (String × Value)}

/-! ## Induction -/

theorem sizeOf_lt_of_mem_items {v : Value} (h : v ∈ items) : sizeOf v < sizeOf (arr items) := by
  have hitem := List.sizeOf_lt_of_mem h
  simp only [arr.sizeOf_spec]
  omega

theorem sizeOf_lt_of_mem_members {member : String × Value} (h : member ∈ members) :
    sizeOf member.2 < sizeOf (obj members) := by
  have hmember := List.sizeOf_lt_of_mem h
  obtain ⟨name, v⟩ := member
  simp only [Prod.mk.sizeOf_spec] at hmember
  simp only [obj.sizeOf_spec]
  omega

theorem tree_induction {motive : Value → Prop}
    (null : motive .null) (bool : ∀ b, motive (.bool b)) (int : ∀ i, motive (.int i))
    (uint : ∀ n, motive (.uint n)) (float : ∀ x, motive (.float x)) (str : ∀ s, motive (.str s))
    (arr : ∀ items : List Value, (∀ v ∈ items, motive v) → motive (.arr items))
    (obj : ∀ members : Document, (∀ member ∈ members, motive member.2) → motive (.obj members)) :
    ∀ v, motive v
  | .null => null
  | .bool b => bool b
  | .int i => int i
  | .uint n => uint n
  | .float x => float x
  | .str s => str s
  | .arr items => arr items fun v _ => tree_induction null bool int uint float str arr obj v
  | .obj members => obj members fun member _ =>
      tree_induction null bool int uint float str arr obj member.2
termination_by v => sizeOf v
decreasing_by
  · exact sizeOf_lt_of_mem_items ‹_›
  · exact sizeOf_lt_of_mem_members ‹_›

/-! ## Distinct names -/

theorem hasDistinctNames_arr :
    (arr items).hasDistinctNames = true ↔ ∀ v ∈ items, v.hasDistinctNames = true := by
  rw [hasDistinctNames]
  induction items with
  | nil => simp [allDistinctNames]
  | cons v rest ih => rw [allDistinctNames, Bool.and_eq_true, ih, List.forall_mem_cons]

/-! ## Floating-point numbers -/

def isFloat : Value → Bool
  | .float _ => true
  | _ => false

/-- There is a floating-point number somewhere in the value. -/
def hasFloat (v : Value) : Bool := v.descendants.any isFloat

theorem descendantsOfItems_eq_flatMap (items : List Value) :
    descendantsOfItems items = items.flatMap descendants := by
  induction items with
  | nil => rfl
  | cons v rest ih => rw [descendantsOfItems, ih, List.flatMap_cons]

theorem descendantsOfMembers_eq_flatMap (members : List (String × Value)) :
    descendantsOfMembers members = members.flatMap fun member => member.2.descendants := by
  induction members with
  | nil => rfl
  | cons member rest ih => rw [descendantsOfMembers, ih, List.flatMap_cons]

theorem hasFloat_arr : (arr items).hasFloat = false ↔ ∀ v ∈ items, v.hasFloat = false := by
  rw [hasFloat, descendants, descendantsOfItems_eq_flatMap, List.any_cons, List.any_flatMap]
  simp [isFloat, hasFloat]

theorem hasFloat_obj :
    (obj members).hasFloat = false ↔ ∀ member ∈ members, member.2.hasFloat = false := by
  rw [hasFloat, descendants, descendantsOfMembers_eq_flatMap, List.any_cons, List.any_flatMap]
  simp [isFloat, hasFloat]

@[simp] theorem hasFloat_float (x : Float) : (float x).hasFloat = true := rfl

/-- There is no floating-point number in any of the values. -/
def FloatFree (values : List Value) : Prop := ∀ v ∈ values, v.hasFloat = false

theorem floatFree_cons {v : Value} {rest : List Value} :
    FloatFree (v :: rest) ↔ v.hasFloat = false ∧ FloatFree rest := List.forall_mem_cons

end DocStore.Value
