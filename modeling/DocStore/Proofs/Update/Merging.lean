import DocStore.Proofs.Value.Same
import DocStore.Update

/-!
# Merging a patch

A patch that is an object merges its fields into an object one after the other (`mergeField`), each
under its own name; so what comes of a name depends on the one field that has it.  From this follow
what stands under each name afterwards (`get?_mergeFields`), that everything else keeps its value and
its order (`filter_mergeFields`), and that merging again changes nothing (`mergePatch_mergePatch`).

Names in a patch must be distinct, at every depth: a field that takes a member away, with another that
puts it back, would move it to the end.
-/

namespace DocStore.Value

variable {members fields : Document} {name other : String} {value : Value}

/-! ## One field -/

/-- Merge one field into the members of an object. -/
def mergeField (members : Document) (name : String) (value : Value) : Document :=
  if value.isNull then Assoc.erase members name
  else Assoc.insert members name (mergePatch ((Assoc.get? members name).getD .null) value)

theorem mergeFields_cons (members : Document) (name : String) (value : Value) (rest : Document) :
    mergeFields members ((name, value) :: rest)
      = mergeFields (mergeField members name value) rest := by
  rw [mergeFields, mergeField]

/-- What stands under the name of a field that has been merged into `members`. -/
def mergedValue (members : Document) (name : String) (value : Value) : Option Value :=
  if value.isNull then none
  else some (mergePatch ((Assoc.get? members name).getD .null) value)

theorem get?_mergeField_self (members : Document) (name : String) (value : Value) :
    Assoc.get? (mergeField members name value) name = mergedValue members name value := by
  rw [mergeField, mergedValue]
  split
  · exact Assoc.get?_erase_self members name
  · exact Assoc.get?_insert_self members name _

theorem get?_mergeField_of_ne (members : Document) (value : Value) (h : other ≠ name) :
    Assoc.get? (mergeField members name value) other = Assoc.get? members other := by
  rw [mergeField]
  split
  · exact Assoc.get?_erase_of_ne members h
  · exact Assoc.get?_insert_of_ne members _ h

theorem filter_mergeField (members : Document) (name : String) (value : Value) {p : String → Bool}
    (h : p name = false) :
    (mergeField members name value).filter (fun member => p member.1)
      = members.filter fun member => p member.1 := by
  rw [mergeField]
  split
  · exact Assoc.filter_erase members h
  · exact Assoc.filter_insert members _ h

/-- A field leaves the members as they are if its merged value stands under its name already. -/
theorem mergeField_eq_self (h : Assoc.get? members name = mergedValue members name value) :
    mergeField members name value = members := by
  rw [mergedValue] at h
  rw [mergeField]
  split
  · next hnull =>
      rw [if_pos hnull] at h
      exact Assoc.erase_of_not_mem (Assoc.get?_eq_none_iff.mp h)
  · next hnull =>
      rw [if_neg hnull] at h
      exact Assoc.insert_of_get? h

/-! ## All fields -/

theorem get?_mergeFields_of_not_mem (h : name ∉ Assoc.keys fields) :
    Assoc.get? (mergeFields members fields) name = Assoc.get? members name := by
  induction fields generalizing members with
  | nil => rw [mergeFields]
  | cons field rest ih =>
      obtain ⟨key, value⟩ := field
      obtain ⟨hkey, hrest⟩ := not_or.mp (mt List.mem_cons.mpr h)
      rw [mergeFields_cons, ih hrest, get?_mergeField_of_ne members value hkey]

theorem get?_mergeFields (members : Document) (hdistinct : (Assoc.keys fields).Nodup)
    (h : (name, value) ∈ fields) :
    Assoc.get? (mergeFields members fields) name = mergedValue members name value := by
  induction fields generalizing members with
  | nil => cases h
  | cons field rest ih =>
      obtain ⟨key, v⟩ := field
      obtain ⟨hkey, hrest⟩ := List.nodup_cons.mp hdistinct
      rw [mergeFields_cons]
      rcases List.mem_cons.mp h with heq | hmem
      · cases heq
        rw [get?_mergeFields_of_not_mem hkey, get?_mergeField_self]
      · have hne : name ≠ key := fun heq => hkey (heq ▸ Assoc.mem_keys_of_mem hmem)
        rw [ih _ hrest hmem, mergedValue, get?_mergeField_of_ne members v hne, mergedValue]

/-- The members that no field names keep their values and their order. -/
theorem filter_mergeFields {p : String → Bool} (h : ∀ name ∈ Assoc.keys fields, p name = false) :
    (mergeFields members fields).filter (fun member => p member.1)
      = members.filter fun member => p member.1 := by
  induction fields generalizing members with
  | nil => rw [mergeFields]
  | cons field rest ih =>
      obtain ⟨key, value⟩ := field
      obtain ⟨hkey, hrest⟩ := List.forall_mem_cons.mp h
      rw [mergeFields_cons, ih hrest, filter_mergeField members key value hkey]

theorem mergeFields_eq_self
    (h : ∀ field ∈ fields, Assoc.get? members field.1 = mergedValue members field.1 field.2) :
    mergeFields members fields = members := by
  induction fields with
  | nil => rw [mergeFields]
  | cons field rest ih =>
      obtain ⟨key, value⟩ := field
      obtain ⟨hkey, hrest⟩ := List.forall_mem_cons.mp h
      rw [mergeFields_cons, mergeField_eq_self hkey]
      exact ih hrest

/-! ## Merging again -/

/-- The members that a patch is merged into: those of an object, and none of anything else. -/
def membersOf : Value → Document
  | .obj members => members
  | _ => []

theorem mergePatch_obj (target : Value) (fields : Document) :
    target.mergePatch (.obj fields) = .obj (mergeFields target.membersOf fields) := by
  cases target <;> rfl

mutual

theorem mergePatch_mergePatch : ∀ {patch : Value}, patch.hasDistinctNames = true →
    ∀ target : Value, (target.mergePatch patch).mergePatch patch = target.mergePatch patch
  | .obj fields, h, target => by
      obtain ⟨hnames, hvalues⟩ := Bool.and_eq_true_iff.mp h
      have hdistinct : (Assoc.keys fields).Nodup := of_decide_eq_true hnames
      rw [mergePatch_obj target, mergePatch_obj, membersOf]
      refine congrArg obj (mergeFields_eq_self ?_)
      rintro ⟨name, value⟩ hfield
      -- The first merge has left the merged value, which merging again does not change.
      have hmerged := get?_mergeFields target.membersOf hdistinct hfield
      rw [hmerged, mergedValue, mergedValue, hmerged, mergedValue]
      cases hnull : value.isNull with
      | true => rfl
      | false =>
          exact congrArg some (mergePatch_mergePatch_of_mem hvalues (name, value) hfield _).symm
  | .null, _, _ | .bool _, _, _ | .int _, _, _ | .uint _, _, _ | .float _, _, _ | .str _, _, _
  | .arr _, _, _ => rfl

theorem mergePatch_mergePatch_of_mem : ∀ {fields : List (String × Value)},
    membersDistinctNames fields = true → ∀ field ∈ fields, ∀ target : Value,
      (target.mergePatch field.2).mergePatch field.2 = target.mergePatch field.2
  | (_, value) :: rest, h, field, hfield, target => by
      obtain ⟨hvalue, hrest⟩ := Bool.and_eq_true_iff.mp h
      rcases List.mem_cons.mp hfield with rfl | hmem
      · exact mergePatch_mergePatch hvalue target
      · exact mergePatch_mergePatch_of_mem hrest field hmem target

end

/-! ## Names stay distinct -/

theorem hasDistinctNames_mergeField (name : String)
    (hvalue : ∀ target : Value, target.hasDistinctNames = true →
      (target.mergePatch value).hasDistinctNames = true)
    (h : (obj members).hasDistinctNames = true) :
    (obj (mergeField members name value)).hasDistinctNames = true := by
  obtain ⟨hnames, hvalues⟩ := hasDistinctNames_obj.mp h
  rw [mergeField, hasDistinctNames_obj]
  split
  · refine ⟨Assoc.nodup_keys_erase name hnames, ?_⟩
    intro member hmember
    exact hvalues member (Assoc.mem_erase.mp hmember).1
  · refine ⟨Assoc.nodup_keys_insert name _ hnames, ?_⟩
    intro member hmember
    rcases Assoc.eq_or_mem_of_mem_insert hmember with rfl | hold
    · apply hvalue
      cases hget : Assoc.get? members name with
      | none => rfl
      | some old => exact hvalues (name, old) (Assoc.mem_of_get? hget)
    · exact hvalues member hold

mutual

theorem hasDistinctNames_mergePatch : ∀ {patch : Value}, patch.hasDistinctNames = true →
    ∀ target : Value, target.hasDistinctNames = true →
      (target.mergePatch patch).hasDistinctNames = true
  | .obj fields, h, target, htarget => by
      obtain ⟨-, hvalues⟩ := Bool.and_eq_true_iff.mp h
      have hmembers : (obj target.membersOf).hasDistinctNames = true := by
        cases target with
        | obj members => exact htarget
        | _ => rfl
      rw [mergePatch_obj]
      exact hasDistinctNames_mergeFields hvalues target.membersOf hmembers
  | .null, h, _, _ | .bool _, h, _, _ | .int _, h, _, _ | .uint _, h, _, _ | .float _, h, _, _
  | .str _, h, _, _ | .arr _, h, _, _ => h

theorem hasDistinctNames_mergeFields : ∀ {fields : List (String × Value)},
    membersDistinctNames fields = true → ∀ members : Document,
      (obj members).hasDistinctNames = true →
      (obj (mergeFields members fields)).hasDistinctNames = true
  | [], _, _, hmembers => hmembers
  | (name, value) :: rest, h, members, hmembers => by
      obtain ⟨hvalue, hrest⟩ := Bool.and_eq_true_iff.mp h
      rw [mergeFields_cons]
      apply hasDistinctNames_mergeFields hrest
      exact hasDistinctNames_mergeField name (hasDistinctNames_mergePatch hvalue) hmembers

end

end DocStore.Value
