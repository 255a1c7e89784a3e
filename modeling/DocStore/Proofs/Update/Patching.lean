import DocStore.Proofs.Update.Merging
import DocStore.Store.Write

/-!
# Patching a document

Main statement: `Update.patch_settles`.  A patch that has been merged changes nothing when it is merged
again, and member by member it is said what it does.  An update that carries it reports a document
that it has patched before as unchanged, unless there is a NaN in the document: the report comes from
comparing the document with what it was, and a NaN differs from itself.
-/

namespace DocStore

namespace Value

/-- What the members of an object become when the fields of a patch are merged into them. -/
structure MergedMembers (members fields merged : Document) : Prop where
  /-- Members that no field names keep their values and their order. -/
  others : merged.filter (fun member => member.1 ∉ Assoc.keys fields)
    = members.filter fun member => member.1 ∉ Assoc.keys fields
  removed : ∀ name, (name, .null) ∈ fields → Assoc.get? merged name = none
  replaced : ∀ name value, (name, value) ∈ fields → value.isNull = false →
    (∀ inner, value ≠ .obj inner) → Assoc.get? merged name = some value
  /-- An object is merged into the object that was there, or into an empty one. -/
  nested : ∀ name inner, (name, .obj inner) ∈ fields →
    Assoc.get? merged name
      = some (mergePatch (.obj ((Assoc.get? members name).elim [] membersOf)) (.obj inner))

theorem mergedMembers_mergeFields (members : Document) {fields : Document}
    (hdistinct : (Assoc.keys fields).Nodup) :
    MergedMembers members fields (mergeFields members fields) := by
  constructor
  case others =>
    apply filter_mergeFields (p := fun name => name ∉ Assoc.keys fields)
    intro name hname
    simp [hname]
  case removed =>
    intro name hfield
    exact get?_mergeFields members hdistinct hfield
  case replaced =>
    intro name value hfield hnull hobj
    rw [get?_mergeFields members hdistinct hfield, mergedValue, hnull, if_neg Bool.false_ne_true]
    cases value with
    | obj inner => exact absurd rfl (hobj inner)
    | _ => rfl
  case nested =>
    intro name inner hfield
    have hnull : (obj inner).isNull = false := rfl
    rw [get?_mergeFields members hdistinct hfield, mergedValue, hnull, if_neg Bool.false_ne_true,
      mergePatch_obj, mergePatch_obj]
    cases Assoc.get? members name <;> rfl

end Value

namespace Update

open Value

variable {doc : Document} {patch : Value}

/-! ## Updates of one patch -/

theorem apply_mergePatch_obj (fields doc : Document) :
    apply [.mergePatch (.obj fields)] doc = .ok (mergeFields doc (Assoc.erase fields idField)) := by
  rw [apply, List.foldlM_cons, applyOne, patchWithoutId, mergePatch_obj, membersOf]
  rfl

/-- A document is no longer an object when anything else takes its place, so it stays what it was. -/
theorem apply_mergePatch_of_not_obj (doc : Document) (h : ∀ fields, patch ≠ .obj fields) :
    apply [.mergePatch patch] doc = .ok doc := by
  cases patch with
  | obj fields => exact absurd rfl (h fields)
  | _ => rfl

theorem exists_apply_mergePatch (hpatch : patch.hasDistinctNames = true)
    (hdoc : (obj doc).hasDistinctNames = true) :
    ∃ patched, apply [.mergePatch patch] doc = .ok patched
      ∧ apply [.mergePatch patch] patched = .ok patched
      ∧ (obj patched).hasDistinctNames = true := by
  by_cases hobj : ∃ fields, patch = .obj fields
  · obtain ⟨fields, rfl⟩ := hobj
    -- What is merged is the patch without the identifier, so the laws are used for that.
    obtain ⟨hnames, hvalues⟩ := hasDistinctNames_obj.mp hpatch
    have hfields : (obj (Assoc.erase fields idField)).hasDistinctNames = true := by
      refine hasDistinctNames_obj.mpr ⟨Assoc.nodup_keys_erase idField hnames, ?_⟩
      intro field hfield
      exact hvalues field (Assoc.mem_erase.mp hfield).1
    have hagain := mergePatch_mergePatch hfields (.obj doc)
    have hdistinct := hasDistinctNames_mergePatch hfields (.obj doc) hdoc
    rw [mergePatch_obj, mergePatch_obj, Value.obj.injEq] at hagain
    rw [mergePatch_obj] at hdistinct
    refine ⟨_, apply_mergePatch_obj fields doc, ?_, hdistinct⟩
    rw [apply_mergePatch_obj]
    exact congrArg Except.ok hagain
  · have hnot := not_exists.mp hobj
    exact ⟨doc, apply_mergePatch_of_not_obj doc hnot, apply_mergePatch_of_not_obj doc hnot, hdoc⟩

/-- The report about a document that an update leaves as it is. -/
theorem changedRows_of_apply_self {operations : List Operation} (id : String)
    (hnames : (obj doc).hasDistinctNames = true) (h : apply operations doc = .ok doc) :
    Store.changedRows operations [(id, doc)]
      = .ok (if (obj doc).hasNaN then [(id, doc)] else []) := by
  have hself := beq_self_iff hnames
  rw [Store.changedRows, h]
  show Except.ok (if obj doc == obj doc then [] else [(id, doc)]) = _
  cases hnan : (obj doc).hasNaN with
  | true =>
      have hdiffers : ¬(obj doc == obj doc) = true := by
        rw [hself, hnan]
        exact Bool.noConfusion
      rw [if_neg hdiffers, if_pos rfl]
  | false => rw [if_pos (hself.mpr hnan), if_neg Bool.false_ne_true]

/-! ## Patches settle -/

/-- What merging a patch does, once and again. -/
structure Settles (target patch : Value) : Prop where
  again : (target.mergePatch patch).mergePatch patch = target.mergePatch patch
  members : ∀ members fields, target = .obj members → patch = .obj fields →
    ∃ merged, target.mergePatch patch = .obj merged ∧ MergedMembers members fields merged
  /-- An update that carries the patch leaves a document that it has patched as it is, and reports it
  as changed exactly if there is a NaN in it. -/
  update : ∀ doc, target = .obj doc → target.hasDistinctNames = true →
    ∃ patched, apply [.mergePatch patch] doc = .ok patched
      ∧ apply [.mergePatch patch] patched = .ok patched
      ∧ ∀ id, Store.changedRows [.mergePatch patch] [(id, patched)]
        = .ok (if (Value.obj patched).hasNaN then [(id, patched)] else [])

theorem patch_settles (target : Value) (h : patch.hasDistinctNames = true) :
    Settles target patch := by
  constructor
  case again => exact mergePatch_mergePatch h target
  case members =>
    intro members fields htarget hpatch
    subst htarget hpatch
    have hdistinct := (hasDistinctNames_obj.mp h).1
    exact ⟨_, mergePatch_obj _ fields, mergedMembers_mergeFields members hdistinct⟩
  case update =>
    intro doc htarget hdoc
    subst htarget
    obtain ⟨patched, hfirst, hsecond, hnames⟩ := exists_apply_mergePatch h hdoc
    exact ⟨patched, hfirst, hsecond, fun id => changedRows_of_apply_self id hnames hsecond⟩

/-- A member of a member is taken away, another is added, and one is merged into an object that was
not there. -/
theorem patch_settles_nested :
    let target : Value := .obj [("_id", .str "1"), ("a", .obj [("b", .int 1), ("c", .int 2)])]
    let patch : Value := .obj [("d", .obj [("e", .null)]), ("a", .obj [("b", .null), ("f", .int 3)])]
    patch.hasDistinctNames = true ∧ Settles target patch := by
  intro target patch
  have hdistinct : patch.hasDistinctNames = true := by decide
  exact ⟨hdistinct, patch_settles target hdistinct⟩

/-- A document with a NaN is reported as changed by a patch that it has been given before. -/
theorem patched_reported_changed :
    let doc : Document := [("_id", .str "1"), ("v", .float (0.0 / 0.0))]
    let patch : Value := .obj [("a", .int 1)]
    let patched : Document := [("_id", .str "1"), ("v", .float (0.0 / 0.0)), ("a", .int 1)]
    apply [.mergePatch patch] doc = .ok patched
      ∧ apply [.mergePatch patch] patched = .ok patched
      ∧ Store.changedRows [.mergePatch patch] [("1", patched)] = .ok [("1", patched)] := by
  intro doc patch patched
  have hagain : apply [.mergePatch patch] patched = .ok patched := rfl
  have hdistinct : (obj patched).hasDistinctNames = true := by decide
  have hnan : (obj patched).hasNaN = true := by decide
  refine ⟨rfl, hagain, ?_⟩
  rw [changedRows_of_apply_self "1" hdistinct hagain, if_pos hnan]

end Update

end DocStore
