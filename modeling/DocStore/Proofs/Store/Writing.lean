import DocStore.Proofs.Store.Session
import DocStore.Store.Write

/-!
# Writes to single rows

Whatever an insertion, an update or a deletion does to a store, it does by writes to single rows,
one after the other.  `RowWrite` is such a write, `Store.write` carries it out for a session, and
`Store.writesOf` lists the writes of a request.

The lemmas of `write` say what each part of the store is afterwards.  Everything that is proved
about requests goes through them; nothing below opens `writeRow` or `note` again.
-/

namespace DocStore

/-- A write to one row: the document it stores there, or none if it removes the row. -/
structure RowWrite where
  row : RowKey
  document : Option Document

/-- The rows of the collection after the write. -/
def RowWrite.apply (w : RowWrite) (rows : Rows) : Rows :=
  match w.document with
  | some doc => Assoc.insert rows w.row.id doc
  | none => Assoc.erase rows w.row.id

/-- The content of the row that a note is about. -/
def Undo.content (undo : Undo) : Option Document := undo.before.map Prod.snd

namespace Store

/-- Whether a collection is there. -/
def has (store : Store) (target : CollectionName) : Bool := (store.rows? target).isSome

/-- Carry out a write for a session. -/
def write (store : Store) (session : SessionId) (w : RowWrite) : Store :=
  store.writeRow session w.row w.apply

/-- Carry out writes one after the other. -/
def writeAll (store : Store) (session : SessionId) (writes : List RowWrite) : Store :=
  writes.foldl (fun store w => store.write session w) store

variable {store : Store} {session : SessionId} {w : RowWrite}

@[simp] theorem writeAll_cons (rest : List RowWrite) :
    store.writeAll session (w :: rest) = (store.write session w).writeAll session rest := rfl

/-! ## One write

A write to a collection that is not there does nothing. -/

theorem write_of_missing (h : store.rows? w.row.collection = none) :
    store.write session w = store := by
  simp [write, writeRow, h]

theorem write_of_rows {rows : Rows} (h : store.rows? w.row.collection = some rows) :
    store.write session w
      = { store with
          collections := Assoc.modify store.collections w.row.collection w.apply }.note session
            (Undo.ofRow rows w.row) := by
  simp [write, writeRow, h]

theorem rows?_write (target : CollectionName) :
    (store.write session w).rows? target
      = if target = w.row.collection then (store.rows? target).map w.apply
        else store.rows? target := by
  cases h : store.rows? w.row.collection with
  | none =>
      rw [write_of_missing h]
      split
      · next heq => rw [heq, h, Option.map_none]
      · rfl
  | some rows =>
      rw [write_of_rows h, rows?, collections_note]
      split
      · next heq =>
          rw [heq]
          exact Assoc.get?_modify_self _ _ _
      · next hne => exact Assoc.get?_modify_of_ne _ _ hne

theorem rows?_write_self {rows : Rows} (h : store.rows? w.row.collection = some rows) :
    (store.write session w).rows? w.row.collection = some (w.apply rows) := by
  rw [rows?_write, if_pos rfl, h, Option.map_some]

@[simp] theorem has_write (target : CollectionName) :
    (store.write session w).has target = store.has target := by
  rw [has, has, rows?_write]
  split
  · exact Option.isSome_map
  · rfl

theorem locks_write :
    (store.write session w).locks
      = if store.has w.row.collection && store.inTransaction session
        then store.locks.acquire session .exclusive w.row else store.locks := by
  cases h : store.rows? w.row.collection with
  | none => simp [write_of_missing h, has, h]
  | some rows =>
      rw [write_of_rows h, locks_note, has, h]
      rfl

/-- A write adds to the notes of its session what the row was. -/
theorem session?_write {rows : Rows} (h : store.rows? w.row.collection = some rows)
    (other : SessionId) :
    (store.write session w).session? other
      = if other = session then
          (store.session? other).map (SessionState.noting (Undo.ofRow rows w.row))
        else store.session? other := by
  rw [write_of_rows h, session?_note]
  rfl

theorem session?_write_of_ne {other : SessionId} (hne : other ≠ session) :
    (store.write session w).session? other = store.session? other := by
  cases h : store.rows? w.row.collection with
  | none => rw [write_of_missing h]
  | some rows => rw [session?_write h, if_neg hne]

@[simp] theorem inTransaction_write (other : SessionId) :
    (store.write session w).inTransaction other = store.inTransaction other := by
  cases h : store.rows? w.row.collection with
  | none => rw [write_of_missing h]
  | some rows =>
      rw [inTransaction, inTransaction, session?_write h]
      split
      · cases store.session? other with
        | none => rfl
        | some state => exact SessionState.noting_inTransaction _ state
      · rfl

theorem notes_write_self {rows : Rows} (h : store.rows? w.row.collection = some rows)
    (hin : store.inTransaction session = true) :
    (store.write session w).notes session = Undo.ofRow rows w.row :: store.notes session := by
  obtain ⟨state, hstate, hstatein⟩ := inTransaction_iff.mp hin
  rw [notes, notes, session?_write h, if_pos rfl, hstate]
  simp [SessionState.noting, hstatein]

/-- A note that a write leaves behind was there before or tells what the row was. -/
theorem mem_notes_write {other : SessionId} {undo : Undo}
    (h : undo ∈ (store.write session w).notes other) :
    undo ∈ store.notes other
      ∨ ∃ rows, store.rows? w.row.collection = some rows ∧ undo = Undo.ofRow rows w.row := by
  cases hrows : store.rows? w.row.collection with
  | none =>
      rw [write_of_missing hrows] at h
      exact .inl h
  | some rows =>
      rw [notes, session?_write hrows] at h
      split at h
      · rw [notes]
        cases hstate : store.session? other with
        | none =>
            rw [hstate] at h
            cases h
        | some state =>
            rw [hstate, Option.map_some, Option.map_some, Option.getD_some, SessionState.noting] at h
            split at h
            · rcases List.mem_cons.mp h with rfl | hmem
              · exact .inr ⟨rows, rfl, rfl⟩
              · exact .inl hmem
            · exact .inl h
      · exact .inl h

@[simp] theorem nextSession_write : (store.write session w).nextSession = store.nextSession := by
  cases h : store.rows? w.row.collection with
  | none => rw [write_of_missing h]
  | some rows => rw [write_of_rows h, nextSession_note]

@[simp] theorem keys_sessions_write :
    Assoc.keys (store.write session w).sessions = Assoc.keys store.sessions := by
  cases h : store.rows? w.row.collection with
  | none => rw [write_of_missing h]
  | some rows => rw [write_of_rows h, keys_sessions_note]

/-! ## Rows -/

theorem get?_apply_self (rows : Rows) : Assoc.get? (w.apply rows) w.row.id = w.document := by
  rw [RowWrite.apply]
  split
  · next doc h => rw [Assoc.get?_insert_self, h]
  · next h => rw [Assoc.get?_erase_self, h]

theorem get?_apply_of_ne (rows : Rows) {id : String} (h : id ≠ w.row.id) :
    Assoc.get? (w.apply rows) id = Assoc.get? rows id := by
  rw [RowWrite.apply]
  split
  · exact Assoc.get?_insert_of_ne _ _ h
  · exact Assoc.get?_erase_of_ne _ h

theorem row?_write_of_ne {key : RowKey} (h : key ≠ w.row) :
    (store.write session w).row? key = store.row? key := by
  rw [row?, row?, rows?_write]
  split
  · next heq =>
      have hid : key.id ≠ w.row.id := fun hid => h (by cases key; cases hw : w.row; simp_all)
      cases store.rows? key.collection with
      | none => rfl
      | some rows => exact get?_apply_of_ne rows hid
  · rfl

/-! ## Many writes -/

@[simp] theorem has_writeAll (writes : List RowWrite) (target : CollectionName) :
    (store.writeAll session writes).has target = store.has target := by
  induction writes generalizing store with
  | nil => rfl
  | cons w rest ih => rw [writeAll_cons, ih, has_write]

@[simp] theorem inTransaction_writeAll (writes : List RowWrite) (other : SessionId) :
    (store.writeAll session writes).inTransaction other = store.inTransaction other := by
  induction writes generalizing store with
  | nil => rfl
  | cons w rest ih => rw [writeAll_cons, ih, inTransaction_write]

theorem session?_writeAll_of_ne (writes : List RowWrite) {other : SessionId} (h : other ≠ session) :
    (store.writeAll session writes).session? other = store.session? other := by
  induction writes generalizing store with
  | nil => rfl
  | cons w rest ih => rw [writeAll_cons, ih, session?_write_of_ne h]

/-- Writes leave alone the rows that they are not to. -/
theorem row?_writeAll_of_not_mem {writes : List RowWrite} {key : RowKey}
    (h : key ∉ writes.map RowWrite.row) :
    (store.writeAll session writes).row? key = store.row? key := by
  induction writes generalizing store with
  | nil => rfl
  | cons w rest ih =>
      obtain ⟨hne, hrest⟩ := not_or.mp (mt List.mem_cons.mpr h)
      rw [writeAll_cons, ih hrest, row?_write_of_ne hne]

end Store

end DocStore
