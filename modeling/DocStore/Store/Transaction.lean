import DocStore.Store.Lock

/-!
# Transactions

A write to a row inside a transaction locks the row for the session and notes what the row was.
Commit forgets the notes; rollback follows them from the latest to the first, so each row becomes
what it was before the first write to it.  Both let go of the session's locks.
-/

namespace DocStore

namespace Undo

/-- What a row of a collection is now, noted down. -/
def ofRow (rows : Rows) (key : RowKey) : Undo :=
  ⟨key, do return (← Assoc.index? rows key.id, ← Assoc.get? rows key.id)⟩

/-- Put a row back.  A row that was removed goes back to its place, or to the end if the collection
has become shorter than that. -/
def restore (undo : Undo) (rows : Rows) : Rows :=
  match undo.before with
  | none => Assoc.erase rows undo.row.id
  | some (place, doc) =>
    if Assoc.contains rows undo.row.id then Assoc.insert rows undo.row.id doc
    else Assoc.insertAt rows place undo.row.id doc

/-- Put a row back, if its collection is still there. -/
def apply (collections : List (CollectionName × Rows)) (undo : Undo) :
    List (CollectionName × Rows) :=
  Assoc.modify collections undo.row.collection undo.restore

end Undo

namespace Store

/-! ### Writing rows -/

/-- In a transaction, note how to undo a write and lock its row. -/
def note (store : Store) (session : SessionId) (undo : Undo) : Store :=
  if store.inTransaction session then
    { store with locks := store.locks.acquire session .exclusive undo.row }.modifySession session
      fun state => { state with undo := undo :: state.undo }
  else store

/-- Change the rows of a collection by a write to one of them. -/
def writeRow (store : Store) (session : SessionId) (key : RowKey) (f : Rows → Rows) : Store :=
  match store.rows? key.collection with
  | some rows =>
    { store with collections := Assoc.modify store.collections key.collection f }.note session
      (Undo.ofRow rows key)
  | none => store

/-- Store a document: in the place of the one that has its identifier, or at the end. -/
def put (store : Store) (session : SessionId) (key : RowKey) (doc : Document) : Store :=
  store.writeRow session key fun rows => Assoc.insert rows key.id doc

/-- Remove a document that is there. -/
def remove (store : Store) (session : SessionId) (key : RowKey) : Store :=
  store.writeRow session key fun rows => Assoc.erase rows key.id

/-! ### Beginning and ending -/

/-- End a session's transaction, if it runs one, and let go of its locks. -/
def endTransaction (store : Store) (session : SessionId) : Store :=
  { store with locks := store.locks.release session }.modifySession session fun _ => .idle

/-- Keep what the transaction has written. -/
def commit (store : Store) (session : SessionId) : Store := store.endTransaction session

/-- Begin a transaction; one that is running is committed first. -/
def begin (store : Store) (session : SessionId) : Store :=
  (store.commit session).modifySession session fun state => { state with inTransaction := true }

/-- Undo what the transaction has written. -/
def rollback (store : Store) (session : SessionId) : Store :=
  let undo := ((store.session? session).map SessionState.undo).getD []
  { store with collections := undo.foldl Undo.apply store.collections }.endTransaction session

/-- Close a session; its transaction is rolled back. -/
def closeSession (store : Store) (session : SessionId) : Store :=
  let ended := store.rollback session
  { ended with sessions := Assoc.erase ended.sessions session }

end Store

end DocStore
