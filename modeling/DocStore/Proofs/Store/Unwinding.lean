import DocStore.Proofs.Store.History

/-!
# Following undo notes

A rollback follows the notes of a session from the latest to the first.  What it makes of a
collection is `Undo.unwind`, and what it makes of a single row is what the oldest note about the row
says (`get?_unwind`).  A note taken of a row before a write to it takes that write back exactly,
place and all (`restore_apply`).

`RowsDistinct` is the invariant behind the last point: no collection has two rows of one key.
-/

namespace DocStore

namespace Undo

variable {undo : Undo} {notes : List Undo} {rows : Rows} {key : RowKey} {target : CollectionName}

/-- The rows of a collection once notes have been followed; those about other collections are passed
over. -/
def unwind (notes : List Undo) (target : CollectionName) (rows : Rows) : Rows :=
  notes.foldl (fun rows undo => if undo.row.collection = target then undo.restore rows else rows)
    rows

/-- What the oldest note about a row says it was; none if no note is about it. -/
def oldest? : List Undo → RowKey → Option (Option Document)
  | [], _ => none
  | undo :: older, key =>
    (oldest? older key).or (if undo.row = key then some undo.content else none)

theorem unwind_cons : unwind (undo :: notes) target rows
    = unwind notes target (if undo.row.collection = target then undo.restore rows else rows) := rfl

/-- Notes about other collections do nothing. -/
theorem unwind_of_forall_ne (h : ∀ undo ∈ notes, undo.row.collection ≠ target) :
    unwind notes target rows = rows := by
  induction notes with
  | nil => rfl
  | cons undo older ih =>
      rw [unwind_cons, if_neg (h undo List.mem_cons_self)]
      exact ih fun u hu => h u (List.mem_cons_of_mem _ hu)

theorem get?_foldl_apply (notes : List Undo) (collections : List (CollectionName × Rows))
    (target : CollectionName) :
    Assoc.get? (notes.foldl apply collections) target
      = (Assoc.get? collections target).map (unwind notes target) := by
  induction notes generalizing collections with
  | nil =>
      rw [List.foldl_nil]
      cases Assoc.get? collections target <;> rfl
  | cons undo older ih =>
      rw [List.foldl_cons, ih, apply]
      by_cases h : undo.row.collection = target
      · rw [h, Assoc.get?_modify_self, Option.map_map]
        refine congrArg (Option.map · _) (funext fun rows => ?_)
        rw [unwind_cons, if_pos h]
        rfl
      · rw [Assoc.get?_modify_of_ne _ _ (Ne.symm h)]
        refine congrArg (Option.map · _) (funext fun rows => ?_)
        rw [unwind_cons, if_neg h]

/-! ## One row -/

theorem get?_restore_self : Assoc.get? (undo.restore rows) undo.row.id = undo.content := by
  rw [restore, content]
  split
  · next h => rw [Assoc.get?_erase_self, h, Option.map_none]
  · next place doc h =>
      rw [h, Option.map_some]
      split
      · exact Assoc.get?_insert_self _ _ _
      · exact Assoc.get?_insertAt_self _ _ _ _

theorem get?_restore_of_ne {id : String} (h : id ≠ undo.row.id) :
    Assoc.get? (undo.restore rows) id = Assoc.get? rows id := by
  rw [restore]
  split
  · exact Assoc.get?_erase_of_ne _ h
  · split
    · exact Assoc.get?_insert_of_ne _ _ h
    · exact Assoc.get?_insertAt_of_ne _ _ _ h

theorem get?_unwind (notes : List Undo) (key : RowKey) (rows : Rows) :
    Assoc.get? (unwind notes key.collection rows) key.id
      = (oldest? notes key).getD (Assoc.get? rows key.id) := by
  induction notes generalizing rows with
  | nil => rfl
  | cons undo older ih =>
      rw [unwind_cons, ih, oldest?]
      by_cases hrow : undo.row = key
      · -- An older note about the row, if there is one, is restored later and decides.
        subst hrow
        rw [if_pos rfl, if_pos rfl, get?_restore_self]
        cases oldest? older undo.row <;> rfl
      · rw [if_neg hrow, Option.or_none]
        split
        · next hcollection =>
            have hid : key.id ≠ undo.row.id := by
              intro hid
              cases key
              cases h : undo.row
              simp_all
            rw [get?_restore_of_ne hid]
        · rfl

/-! ## Taking a write back -/

@[simp] theorem row_ofRow (rows : Rows) (key : RowKey) : (ofRow rows key).row = key := rfl

theorem content_ofRow (rows : Rows) (key : RowKey) :
    (ofRow rows key).content = Assoc.get? rows key.id := by
  have hsome := Assoc.index?_isSome rows key.id
  rw [content, ofRow]
  cases hi : Assoc.index? rows key.id <;> cases hg : Assoc.get? rows key.id <;> simp_all

theorem ofRow_of_none (h : Assoc.get? rows key.id = none) : ofRow rows key = ⟨key, none⟩ := by
  have hi : Assoc.index? rows key.id = none := by
    rw [← Option.not_isSome_iff_eq_none, Assoc.index?_isSome, h]
    simp
  rw [ofRow, hi]
  rfl

theorem ofRow_of_some {doc : Document} (h : Assoc.get? rows key.id = some doc) :
    ∃ place, Assoc.index? rows key.id = some place ∧ ofRow rows key = ⟨key, some (place, doc)⟩ := by
  have hi : (Assoc.index? rows key.id).isSome = true := by
    rw [Assoc.index?_isSome, h, Option.isSome_some]
  obtain ⟨place, hplace⟩ := Option.isSome_iff_exists.mp hi
  refine ⟨place, hplace, ?_⟩
  rw [ofRow, hplace, h]
  rfl

/-- A note of what a row was takes back any write to the row. -/
theorem restore_apply {w : RowWrite} (hd : (Assoc.keys rows).Nodup) :
    (ofRow rows w.row).restore (w.apply rows) = rows := by
  -- A row that was not there is removed again; one that was goes back to its place.
  cases hbefore : Assoc.get? rows w.row.id with
  | none =>
      rw [ofRow_of_none hbefore, restore]
      simp only
      rw [RowWrite.apply]
      split
      · exact Assoc.erase_insert _ hbefore
      · rw [Assoc.erase_of_not_mem (Assoc.get?_eq_none_iff.mp hbefore)]
        exact Assoc.erase_of_not_mem (Assoc.get?_eq_none_iff.mp hbefore)
  | some old =>
      obtain ⟨place, hplace, hnote⟩ := ofRow_of_some hbefore
      rw [hnote, restore]
      simp only
      rw [Assoc.contains, Store.get?_apply_self, RowWrite.apply]
      cases w.document with
      | some doc => exact Assoc.insert_insert doc hbefore
      | none => exact Assoc.insertAt_erase hd hplace hbefore

theorem nodup_restore (h : (Assoc.keys rows).Nodup) : (Assoc.keys (undo.restore rows)).Nodup := by
  rw [restore]
  split
  · exact Assoc.nodup_keys_erase _ h
  · split
    · exact Assoc.nodup_keys_insert _ _ h
    · exact Assoc.nodup_keys_insertAt _ _ _ h

theorem nodup_unwind (notes : List Undo) (target : CollectionName) (h : (Assoc.keys rows).Nodup) :
    (Assoc.keys (unwind notes target rows)).Nodup := by
  induction notes generalizing rows with
  | nil => exact h
  | cons undo older ih =>
      rw [unwind_cons]
      split
      · exact ih (nodup_restore h)
      · exact ih h

end Undo

namespace Store

variable {store : Store} {session : SessionId} {key : RowKey} {target : CollectionName}

/-! ## What a rollback makes of rows -/

theorem rows?_rollback : (store.rollback session).rows? target
    = (store.rows? target).map (Undo.unwind (store.notes session) target) :=
  Undo.get?_foldl_apply (store.notes session) store.collections target

/-- A rollback makes of a row what the oldest note about it says. -/
theorem row?_rollback (h : store.has key.collection = true) :
    (store.rollback session).row? key
      = (Undo.oldest? (store.notes session) key).getD (store.row? key) := by
  obtain ⟨rows, hrows⟩ := Option.isSome_iff_exists.mp h
  rw [row?, row?, rows?_rollback, hrows, Option.map_some, Option.bind_some, Option.bind_some]
  exact Undo.get?_unwind _ key rows

/-! ## Distinct rows -/

/-- No collection has two rows of one key. -/
def RowsDistinct (store : Store) : Prop :=
  ∀ target rows, store.rows? target = some rows → (Assoc.keys rows).Nodup

theorem RowsDistinct.write (h : store.RowsDistinct) (w : RowWrite) :
    (store.write session w).RowsDistinct := by
  intro target rows hrows
  rw [rows?_write] at hrows
  split at hrows
  · obtain ⟨before, hbefore, rfl⟩ := Option.map_eq_some_iff.mp hrows
    have hd := h target before hbefore
    rw [RowWrite.apply]
    split
    · exact Assoc.nodup_keys_insert _ _ hd
    · exact Assoc.nodup_keys_erase _ hd
  · exact h target rows hrows

theorem RowsDistinct.writeAll (h : store.RowsDistinct) (writes : List RowWrite) :
    (store.writeAll session writes).RowsDistinct := by
  induction writes generalizing store with
  | nil => exact h
  | cons w rest ih => exact ih (h.write w)

theorem RowsDistinct.rollback (h : store.RowsDistinct) (session : SessionId) :
    (store.rollback session).RowsDistinct := by
  intro target rows hrows
  rw [rows?_rollback] at hrows
  obtain ⟨before, hbefore, rfl⟩ := Option.map_eq_some_iff.mp hrows
  exact Undo.nodup_unwind _ _ (h target before hbefore)

theorem RowsDistinct.step (h : store.RowsDistinct) (event : Event) :
    (store.step event).RowsDistinct := by
  have heffect := step_effect store event
  generalize store.step event = after at heffect
  cases heffect with
  | nothing => exact h
  | @create _ created _ _ =>
      intro target rows hrows
      rw [rows?] at hrows
      by_cases heq : target = created
      · rw [heq, Assoc.get?_insert_self] at hrows
        cases hrows
        exact List.nodup_nil
      · rw [Assoc.get?_insert_of_ne _ _ heq] at hrows
        exact h target rows hrows
  | @drop _ dropped =>
      intro target rows hrows
      have hrows : Assoc.get? (Assoc.erase store.collections dropped) target = some rows := hrows
      by_cases heq : target = dropped
      · rw [heq, Assoc.get?_erase_self] at hrows
        cases hrows
      · rw [Assoc.get?_erase_of_ne _ heq] at hrows
        exact h target rows hrows
  | lock => exact h
  | write => exact h.writeAll _
  | begin => exact h
  | commit => exact h
  | rollback => exact h.rollback _
  | opened => exact h
  | closed => exact h.rollback _

theorem Reachable.rowsDistinct (h : Reachable store) : store.RowsDistinct := by
  induction h with
  | empty version => exact fun _ _ h => nomatch h
  | step event _ ih => exact ih.step event

end Store

end DocStore
