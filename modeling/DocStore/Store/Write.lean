import DocStore.Store.Read
import DocStore.Store.Transaction
import DocStore.Update

/-!
# Writing to the store

A write is worked out in full before anything is stored: the rows it concerns are selected and found
free of other sessions' locks, and each new document is computed.  So a write that fails leaves the
store as it was.
-/

namespace DocStore.Store

def missingId : DocError :=
  .server ServerCode.missingId "Document is missing a required field"

def duplicateKey : DocError :=
  .server ServerCode.duplicateKey
    "Document contains a field value that is not unique but required to be for collection"

/-- Fail if another session has a lock on one of the rows. -/
def checkFree (store : Store) (session : SessionId) (target : CollectionName) (ids : List String) :
    Except DocError Unit :=
  if ids.any fun id => store.locks.conflict ⟨target, id⟩ session .exclusive then
    .error lockWaitTimeout
  else .ok ()

/-! ### Inserting -/

/-- The documents to insert, each under the text of its identifier.  Without `upsert` an identifier
must be neither one of those `taken` nor that of an earlier document. -/
def prepare (upsert : Bool) (taken : List String) : List Value → Except DocError Rows
  | [] => .ok []
  | .obj doc :: rest =>
    match Assoc.get? doc idField with
    | none => .error missingId
    | some value =>
      let id := value.bareText
      if !upsert && taken.contains id then .error duplicateKey
      else do return (id, doc) :: (← prepare upsert (id :: taken) rest)
  | _ :: _ => .error missingId

/-- What storing a document counts for: a new one once, one that replaces a different one twice, and
one that was there already not at all. -/
def insertWeight (previous : Option Document) (doc : Document) : Nat :=
  match previous with
  | none => 1
  | some old => if Value.obj old == Value.obj doc then 0 else 2

/-- Store documents one after the other; the answer is what they count for together. -/
def putAll (store : Store) (session : SessionId) (target : CollectionName) :
    Rows → Nat × Store
  | [] => (0, store)
  | (id, doc) :: rest =>
    let key : RowKey := ⟨target, id⟩
    let (count, stored) := putAll (store.put session key doc) session target rest
    (insertWeight (store.row? key) doc + count, stored)

def insert (store : Store) (session : SessionId) (target : CollectionName) (documents : List Value)
    (upsert : Bool) : Except DocError (Nat × Store) := do
  let rows ← store.rows target
  let prepared ← prepare upsert (Assoc.keys rows) documents
  store.checkFree session target (Assoc.keys prepared)
  return store.putAll session target prepared

/-! ### Updating and deleting -/

/-- The rows that an update or delete concerns: those its filter lets through, sorted and cut to the
window. -/
def selectForWrite (store : Store) (session : SessionId) (target : CollectionName) (o : Options) :
    Except DocError Rows := do
  let rows ← filterRows o.filter (← store.rows target)
  let sorted ← Query.sortBy o.sort (fun row : String × Document => .row (.obj row.2)) rows
  let selected := Query.window o.limit o.offset sorted
  store.checkFree session target (Assoc.keys selected)
  return selected

/-- The rows that operations change, with their new documents. -/
def changedRows (operations : List Operation) : Rows → Except DocError Rows
  | [] => .ok []
  | (id, doc) :: rest => do
    let updated ← Update.apply operations doc
    let others ← changedRows operations rest
    return if Value.obj updated == Value.obj doc then others else (id, updated) :: others

/-- Update rows; the answer is how many have changed. -/
def update (store : Store) (session : SessionId) (target : CollectionName) (o : Options)
    (operations : List Operation) : Except DocError (Nat × Store) := do
  if operations.isEmpty then throw Update.noOperations
  let changed ← changedRows operations (← store.selectForWrite session target o)
  return (changed.length, (store.putAll session target changed).2)

/-- Delete rows; the answer is how many. -/
def delete (store : Store) (session : SessionId) (target : CollectionName) (o : Options) :
    Except DocError (Nat × Store) := do
  let selected ← store.selectForWrite session target o
  return (selected.length,
    (keysOf target selected).foldl (fun store key => store.remove session key) store)

end DocStore.Store
