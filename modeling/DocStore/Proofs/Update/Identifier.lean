import DocStore.Proofs.Update

/-!
# When a document loses its identifier

An operation may put something that is no object in the place of the document; a later one may put an
object in the place of that, and this object has no identifier.  Main statement:
`Update.id_kept_or_lost`.  The identifier is lost exactly by the updates in which this happens and
lasts (`LosesId`), and in no other way does an update change it.

Whether there is an object is decided by single operations, whatever was there before them: some never
keep one (`Operation.KeepsObject`), some always make one (`Operation.MakesObject`), and under all
others an object stays one and anything else stays what it is not.
-/

namespace DocStore

/-- The operation leaves an object behind, whatever was there. -/
def Operation.MakesObject : Operation → Prop
  | .set path _ => path.isRoot = true
  | .mergePatch patch => ∃ fields, patch = .obj fields
  | _ => False

namespace Update

open Value

variable {operations rest : List Operation} {operation : Operation} {root after : Value}

/-! ## One operation -/

theorem isObject_applyOne (hkeeps : operation.KeepsObject) (hmakes : ¬operation.MakesObject)
    (happly : applyOne root operation = .ok after) : after.isObject = root.isObject := by
  cases applied_of_applyOne happly with
  | replaced hroot _ => exact absurd hroot hmakes
  | set v _ _ => exact isObject_write true
  | changed v _ => exact isObject_write false
  | unset _ => exact isObject_atLast fun _ => isObject_removeChild
  | merged => exact absurd hkeeps hmakes
  | inserted v _ => exact isObject_atLast fun _ => isObject_insertItem
  | appended v _ => exact isObject_modifyAt fun hnil => absurd hnil (ne_nil_of_keepsObject hkeeps)

theorem isObject_of_not_keepsObject (h : ¬operation.KeepsObject)
    (happly : applyOne root operation = .ok after) : after.isObject = false := by
  cases applied_of_applyOne happly with
  | @merged patch =>
      cases patch with
      | obj fields => exact absurd ⟨fields, rfl⟩ h
      | _ => rfl
  | @appended path value v _ =>
      have hroot : path.segments = [] := List.isEmpty_iff.mp (Bool.not_eq_false _ ▸ h)
      rw [hroot]
      cases root <;> rfl
  | _ => exact absurd trivial h

/-- An object that is made anew takes no identifier over. -/
theorem hasId_none_of_makesObject (h : operation.MakesObject) (hroot : root.isObject = false)
    (happly : applyOne root operation = .ok after) : after.HasId none := by
  have hget : root.get? idField = none := by
    cases root with
    | obj members => cases hroot
    | _ => rfl
  have hmembers : root.membersOf = [] := by
    cases root with
    | obj members => cases hroot
    | _ => rfl
  cases applied_of_applyOne happly with
  | @replaced path value v _ _ hreplaced =>
      cases v with
      | obj members =>
          rw [replacement, hget] at hreplaced
          cases hreplaced
          exact ⟨_, rfl, Assoc.get?_erase_self members idField⟩
      | _ => cases hreplaced
  | set v hinside _ => exact absurd h hinside
  | merged =>
      obtain ⟨fields, rfl⟩ := h
      have hfields : idField ∉ Assoc.keys (Assoc.erase fields idField) :=
        Assoc.get?_eq_none_iff.mp (Assoc.get?_erase_self fields idField)
      rw [patchWithoutId, mergePatch_obj, hmembers]
      exact ⟨_, rfl, get?_mergeFields_of_not_mem hfields⟩
  | _ => cases h

theorem keepsObject_of_makesObject (h : operation.MakesObject) : operation.KeepsObject := by
  cases operation with
  | mergePatch patch => exact h
  | arrayAppend path value => cases h
  | _ => trivial

/-! ## All operations -/

/-- One of the operations makes an object, and all after it keep it. -/
def MakesLast (operations : List Operation) : Prop :=
  ∃ earlier maker later, operations = earlier ++ maker :: later
    ∧ maker.MakesObject ∧ ∀ op ∈ later, op.KeepsObject

/-- One of the operations does not keep the document an object, and still it ends as one. -/
def LosesId (operations : List Operation) : Prop :=
  (∃ op ∈ operations, ¬op.KeepsObject) ∧ MakesLast operations

theorem makesLast_cons :
    MakesLast (operation :: rest)
      ↔ MakesLast rest ∨ (operation.MakesObject ∧ ∀ op ∈ rest, op.KeepsObject) := by
  constructor
  · rintro ⟨earlier, maker, later, hsplit, hmakes, hkeeps⟩
    cases earlier with
    | nil =>
        obtain ⟨rfl, rfl⟩ := List.cons.inj hsplit
        exact .inr ⟨hmakes, hkeeps⟩
    | cons first earlier =>
        obtain ⟨-, rfl⟩ := List.cons.inj hsplit
        exact .inl ⟨earlier, maker, later, rfl, hmakes, hkeeps⟩
  · rintro (⟨earlier, maker, later, rfl, hmakes, hkeeps⟩ | ⟨hmakes, hkeeps⟩)
    · exact ⟨operation :: earlier, maker, later, rfl, hmakes, hkeeps⟩
    · exact ⟨[], operation, rest, rfl, hmakes, hkeeps⟩

/-- What is left once there has been no object: an object without an identifier, or no object. -/
theorem run_without_object (hrun : operations.foldlM applyOne root = .ok after)
    (hbroken : root.isObject = false ∨ ∃ op ∈ operations, ¬op.KeepsObject) :
    (MakesLast operations → after.HasId none) ∧ (¬MakesLast operations → after.isObject = false) := by
  -- Either there is no object now, or one of the operations that are left will take it away.
  induction operations generalizing root with
  | nil =>
      cases hrun
      refine ⟨?_, fun _ => hbroken.resolve_right nofun⟩
      rintro ⟨earlier, maker, later, hsplit, -⟩
      exact absurd hsplit (by simp)
  | cons operation rest ih =>
      rw [List.foldlM_cons] at hrun
      obtain ⟨next, hnext, hrun⟩ := Outcome.bind_eq_ok.mp hrun
      by_cases hlast : operation.MakesObject ∧ ∀ op ∈ rest, op.KeepsObject
      · -- Nothing breaks the object that is made here, so there was none before it.
        obtain ⟨hmakes, hrest⟩ := hlast
        have hroot : root.isObject = false := by
          refine hbroken.resolve_right ?_
          rintro ⟨op, hop, hbreaks⟩
          rcases List.mem_cons.mp hop with rfl | hmem
          · exact hbreaks (keepsObject_of_makesObject hmakes)
          · exact hbreaks (hrest op hmem)
        have hid := hasId_foldlM (hasId_none_of_makesObject hmakes hroot hnext) hrest hrun
        have hmakesLast := makesLast_cons.mpr (.inr ⟨hmakes, hrest⟩)
        exact ⟨fun _ => hid, fun hnot => absurd hmakesLast hnot⟩
      · rw [makesLast_cons, or_iff_left hlast]
        apply ih hrun
        by_cases hkeeps : operation.KeepsObject
        · by_cases hmakes : operation.MakesObject
          · exact .inr (by simpa [hmakes] using hlast)
          · rw [isObject_applyOne hkeeps hmakes hnext]
            refine hbroken.imp_right ?_
            rintro ⟨op, hop, hbreaks⟩
            rcases List.mem_cons.mp hop with rfl | hmem
            · exact absurd hkeeps hbreaks
            · exact ⟨op, hmem, hbreaks⟩
        · exact .inl (isObject_of_not_keepsObject hkeeps hnext)

/-- An update that loses the identifier leaves a document without one, and any other leaves the
identifier it was. -/
theorem id_kept_or_lost {doc updated : Document} {id : Value}
    (hid : Assoc.get? doc idField = some id) (happly : apply operations doc = .ok updated) :
    (Assoc.get? updated idField = some id ↔ ¬LosesId operations)
      ∧ (Assoc.get? updated idField = none ↔ LosesId operations) := by
  have houtcome : (LosesId operations ∧ Assoc.get? updated idField = none)
      ∨ (¬LosesId operations ∧ Assoc.get? updated idField = some id) := by
    by_cases hbreaks : ∃ op ∈ operations, ¬op.KeepsObject
    · rw [apply] at happly
      split at happly
      · cases happly
      obtain ⟨after, hrun, happly⟩ := Outcome.bind_eq_ok.mp happly
      obtain ⟨hmade, hnone⟩ := run_without_object hrun (.inr hbreaks)
      by_cases hlast : MakesLast operations
      · obtain ⟨members, rfl, hmembers⟩ := hmade hlast
        cases happly
        exact .inl ⟨⟨hbreaks, hlast⟩, hmembers⟩
      · have hafter := hnone hlast
        cases after with
        | obj members => cases hafter
        | _ =>
            cases happly
            exact .inr ⟨fun hloses => hlast hloses.2, hid⟩
    · have hkeeps : ∀ op ∈ operations, op.KeepsObject := by simpa using hbreaks
      exact .inr ⟨fun hloses => hbreaks hloses.1, (id_of_apply hkeeps happly).trans hid⟩
  rcases houtcome with ⟨hloses, hget⟩ | ⟨hkept, hget⟩
  · simp [hloses, hget]
  · simp [hkept, hget]

/-- An array in the place of the document, and an object in the place of the array. -/
theorem id_lost :
    let doc : Document := [("_id", .str "1"), ("v", .int 1)]
    let operations : List Operation :=
      [.arrayAppend ⟨[]⟩ (.literal (.int 1)), .set ⟨[]⟩ (.literal (.obj [("v", .int 2)]))]
    Assoc.get? doc idField = some (.str "1")
      ∧ apply operations doc = .ok [("v", .int 2)]
      ∧ Assoc.get? [("v", Value.int 2)] idField = none := by
  intro doc operations
  exact ⟨rfl, rfl, rfl⟩

/-- The object that is made is taken away again, so the document stays what it was. -/
theorem id_kept_or_lost_restored :
    let doc : Document := [("_id", .str "1"), ("v", .int 1)]
    let operations : List Operation :=
      [.mergePatch .null, .mergePatch (.obj [("v", .int 2)]), .arrayAppend ⟨[]⟩ (.literal .null)]
    Assoc.get? doc idField = some (.str "1")
      ∧ apply operations doc = .ok doc
      ∧ (Assoc.get? doc idField = some (.str "1") ↔ ¬LosesId operations)
      ∧ (Assoc.get? doc idField = none ↔ LosesId operations) := by
  intro doc operations
  have happly : apply operations doc = .ok doc := rfl
  exact ⟨rfl, happly, id_kept_or_lost rfl happly⟩

end Update

end DocStore
