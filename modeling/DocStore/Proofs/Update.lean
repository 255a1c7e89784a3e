import DocStore.Proofs.Outcome
import DocStore.Proofs.Update.Merging
import DocStore.Proofs.Update.Places

/-!
# What an update keeps

The operations of an update may rewrite any part of a document but its identifier.  Main statement:
`Update.id_of_apply`.  The identifier of an updated document is that of the document before, as long
as each operation keeps a document an object: whatever is merged into it must be an object, and
nothing may be appended to the document itself.

`Value.HasId` is what one operation after the other preserves.  A path that does not start at the
identifier has left it for another member at its first step, so the laws about places that a path
leaves alone apply to it.
-/

namespace DocStore

/-- The value is an object with this identifier, or without one. -/
def Value.HasId (id : Option Value) (value : Value) : Prop :=
  ∃ members, value = .obj members ∧ Assoc.get? members idField = id

namespace Value.HasId

variable {id : Option Value} {root after new : Value} {segments : List Segment}

/-- A document keeps its identifier if it stays an object and has the same in the identifier's place. -/
theorem of_same (h : root.HasId id) (hobject : after.isObject = root.isObject)
    (hid : lookup? [.member idField] after = lookup? [.member idField] root) : after.HasId id := by
  obtain ⟨members, rfl, hmembers⟩ := h
  cases after with
  | obj updated =>
      refine ⟨updated, rfl, ?_⟩
      simpa [lookup?, child?, hmembers] using hid
  | _ => cases hobject

/-! ## A path -/

theorem modifyAt (h : root.HasId id) {f : Value → Value} (hroot : segments = [] → (f root).HasId id)
    (hpath : segments.head? ≠ some (.member idField)) : (Value.modifyAt f segments root).HasId id := by
  cases segments with
  | nil => exact hroot rfl
  | cons step rest =>
      have hstep : step ≠ .member idField := fun heq => hpath (congrArg some heq)
      exact h.of_same (isObject_modifyAt nofun) (lookup?_modifyAt_of_ne [] [] root hstep)

theorem atLast (h : root.HasId id) {f : Segment → Value → Value}
    (hobject : ∀ last, (f last root).isObject = root.isObject)
    (hothers : ∀ last w, last ≠ .member idField →
      child? (.member idField) (f last w) = child? (.member idField) w)
    (hpath : segments.head? ≠ some (.member idField)) : (Value.atLast f segments root).HasId id := by
  cases segments with
  | nil => exact h
  | cons step rest =>
      have hstep : step ≠ .member idField := fun heq => hpath (congrArg some heq)
      exact h.of_same (isObject_atLast hobject)
        (lookup?_atLast_of_ne [] [] root hstep fun w => hothers step w hstep)

theorem write (h : root.HasId id) (create : Bool)
    (hpath : segments.head? ≠ some (.member idField)) :
    (Value.write create new segments root).HasId id := by
  cases segments with
  | nil => exact h
  | cons step rest =>
      have hstep : step ≠ .member idField := fun heq => hpath (congrArg some heq)
      exact h.of_same (isObject_write create) (lookup?_write_of_ne create [] [] root hstep)

/-! ## Whole documents -/

theorem mergePatch (h : root.HasId id) (fields : Document) :
    (root.mergePatch (Update.patchWithoutId (.obj fields))).HasId id := by
  obtain ⟨members, rfl, hid⟩ := h
  rw [Update.patchWithoutId, mergePatch_obj]
  refine ⟨_, rfl, (get?_mergeFields_of_not_mem ?_).trans hid⟩
  exact Assoc.get?_eq_none_iff.mp (Assoc.get?_erase_self fields idField)

theorem replacement (h : root.HasId id) {replaced : Value}
    (hreplaced : Update.replacement root new = .ok replaced) : replaced.HasId id := by
  obtain ⟨members, rfl, hid⟩ := h
  cases new with
  | obj others =>
      cases hreplaced
      refine ⟨_, rfl, ?_⟩
      rw [Value.get?, hid]
      cases id with
      | none => exact Assoc.get?_erase_self others idField
      | some id => exact Assoc.get?_insertAt_self _ 0 idField id
  | _ => cases hreplaced

end Value.HasId

/-! ## Operations -/

/-- The operation keeps a document an object. -/
def Operation.KeepsObject : Operation → Prop
  | .mergePatch patch => ∃ fields, patch = .obj fields
  | .arrayAppend path _ => path.isRoot = false
  | _ => True

namespace Update

open Value

variable {id : Option Value} {root after : Value} {operation : Operation} {operations : List Operation}

/-- A path that may be written through does not start at the identifier. -/
theorem writable_ok {path : Path} {segments : List Segment} (h : writable path = .ok segments) :
    segments = path.segments ∧ segments.head? ≠ some (.member idField) := by
  rw [writable] at h
  split at h
  · cases h
  · next hhead =>
      split at h
      · cases h
        exact ⟨rfl, hhead⟩
      · cases h

/-- What an operation makes of a value, where `v` is the value it writes. -/
inductive Applied (root : Value) : Operation → Value → Prop
  | replaced {path value v after} (hroot : path.isRoot = true)
      (hreplaced : replacement root v = .ok after) : Applied root (.set path value) after
  | set {path value} (v : Value) (hinside : ¬path.isRoot = true)
      (hfree : path.segments.head? ≠ some (.member idField)) :
      Applied root (.set path value) (write true v path.segments root)
  | changed {path value} (v : Value) (hfree : path.segments.head? ≠ some (.member idField)) :
      Applied root (.change path value) (write false v path.segments root)
  | unset {path} (hfree : path.segments.head? ≠ some (.member idField)) :
      Applied root (.unset path) (atLast removeChild path.segments root)
  | merged {patch} : Applied root (.mergePatch patch) (root.mergePatch (patchWithoutId patch))
  | inserted {path value} (v : Value) (hfree : path.segments.head? ≠ some (.member idField)) :
      Applied root (.arrayInsert path value) (atLast (insertItem v) path.segments root)
  | appended {path value} (v : Value) (hfree : path.segments.head? ≠ some (.member idField)) :
      Applied root (.arrayAppend path value) (modifyAt (appendItem v) path.segments root)

theorem applied_of_applyOne (happly : applyOne root operation = .ok after) :
    Applied root operation after := by
  cases operation with
  | set path value =>
      obtain ⟨v, -, happly⟩ := Outcome.bind_eq_ok.mp happly
      split at happly
      · next hroot => exact .replaced hroot happly
      · next hinside =>
          obtain ⟨segments, hsegments, happly⟩ := Outcome.bind_eq_ok.mp happly
          obtain ⟨rfl, hfree⟩ := writable_ok hsegments
          cases happly
          exact .set v hinside hfree
  | change path value =>
      obtain ⟨v, -, happly⟩ := Outcome.bind_eq_ok.mp happly
      obtain ⟨segments, hsegments, happly⟩ := Outcome.bind_eq_ok.mp happly
      obtain ⟨rfl, hfree⟩ := writable_ok hsegments
      cases happly
      exact .changed v hfree
  | unset path =>
      obtain ⟨segments, hsegments, happly⟩ := Outcome.bind_eq_ok.mp happly
      obtain ⟨rfl, hfree⟩ := writable_ok hsegments
      cases happly
      exact .unset hfree
  | mergePatch patch =>
      cases happly
      exact .merged
  | arrayInsert path value =>
      obtain ⟨v, -, happly⟩ := Outcome.bind_eq_ok.mp happly
      obtain ⟨segments, hsegments, happly⟩ := Outcome.bind_eq_ok.mp happly
      obtain ⟨rfl, hfree⟩ := writable_ok hsegments
      cases happly
      exact .inserted v hfree
  | arrayAppend path value =>
      obtain ⟨v, -, happly⟩ := Outcome.bind_eq_ok.mp happly
      obtain ⟨segments, hsegments, happly⟩ := Outcome.bind_eq_ok.mp happly
      obtain ⟨rfl, hfree⟩ := writable_ok hsegments
      cases happly
      exact .appended v hfree

/-- What is appended to is inside the document, unless the operation makes an array of it. -/
theorem ne_nil_of_keepsObject {path : Path} {value : Expr}
    (h : (Operation.arrayAppend path value).KeepsObject) : path.segments ≠ [] := by
  intro hnil
  rw [Operation.KeepsObject, Path.isRoot, hnil] at h
  cases h

theorem hasId_applyOne (h : root.HasId id) (hop : operation.KeepsObject)
    (happly : applyOne root operation = .ok after) : after.HasId id := by
  cases applied_of_applyOne happly with
  | replaced _ hreplaced => exact h.replacement hreplaced
  | set v _ hfree => exact h.write true hfree
  | changed v hfree => exact h.write false hfree
  | unset hfree =>
      exact h.atLast (fun _ => isObject_removeChild) (fun _ _ => child?_removeChild_of_ne) hfree
  | merged =>
      obtain ⟨fields, rfl⟩ := hop
      exact h.mergePatch fields
  | inserted v hfree =>
      exact h.atLast (fun _ => isObject_insertItem) (fun _ _ _ => child?_insertItem) hfree
  | appended v hfree =>
      exact h.modifyAt (fun hnil => absurd hnil (ne_nil_of_keepsObject hop)) hfree

theorem hasId_foldlM (h : root.HasId id) (hops : ∀ op ∈ operations, op.KeepsObject)
    (happly : operations.foldlM applyOne root = .ok after) : after.HasId id := by
  induction operations generalizing root with
  | nil =>
      cases happly
      exact h
  | cons op rest ih =>
      rw [List.foldlM_cons] at happly
      obtain ⟨next, hnext, happly⟩ := Outcome.bind_eq_ok.mp happly
      exact ih (hasId_applyOne h (hops op List.mem_cons_self) hnext)
        (fun o ho => hops o (List.mem_cons_of_mem _ ho)) happly

/-- An update that keeps documents objects keeps their identifiers. -/
theorem id_of_apply {doc updated : Document} (hops : ∀ op ∈ operations, op.KeepsObject)
    (happly : apply operations doc = .ok updated) :
    Assoc.get? updated idField = Assoc.get? doc idField := by
  rw [apply] at happly
  split at happly
  · cases happly
  · obtain ⟨after, hafter, happly⟩ := Outcome.bind_eq_ok.mp happly
    obtain ⟨members, rfl, hid⟩ := hasId_foldlM ⟨doc, rfl, rfl⟩ hops hafter
    cases happly
    exact hid

end Update

end DocStore
