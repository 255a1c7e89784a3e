import DocStore.Store.Write

/-!
# Executing requests

`Store.execute` answers one request of a session.  Every state that a store can be in comes about by
opening sessions, executing requests and closing sessions.
-/

namespace DocStore.Store

def collectionExists (target : CollectionName) : DocError :=
  .server ServerCode.collectionExists s!"Table '{target.name}' already exists"

/-- Create a collection; with `reuse`, one that is there stays as it is. -/
def createCollection (store : Store) (target : CollectionName) (reuse : Bool) :
    Except DocError Store :=
  if Assoc.contains store.collections target then
    if reuse then .ok store else .error (collectionExists target)
  else .ok { store with collections := Assoc.insert store.collections target [] }

/-- Drop a collection, if it is there, and the locks on its rows. -/
def dropCollection (store : Store) (target : CollectionName) : Store :=
  { store with
    collections := Assoc.erase store.collections target
    locks := store.locks.forget target }

/-- The names of a schema's collections, in the order in which they were created. -/
def collectionNames (store : Store) (schema : String) : List String :=
  ((Assoc.keys store.collections).filter fun target => target.schema == schema).map
    CollectionName.name

/-- The answer to a change that may fail, and the store after it. -/
def settle {α : Type} (store : Store) (respond : α → Response) :
    Except DocError (α × Store) → Except DocError Response × Store
  | .ok (a, changed) => (.ok (respond a), changed)
  | .error e => (.error e, store)

/-- The response about a number of documents. -/
def affected (count : Nat) : Response := .affected (UInt64.ofNat count)

/-- Answer a request of a session. -/
def execute (store : Store) (session : SessionId) : Request → Except DocError Response × Store
  | .hello _ => (.ok (.welcome store.version.text), store)
  | .createCollection target reuse =>
    store.settle (fun () => .ok) ((store.createCollection target reuse).map fun created =>
      ((), created))
  | .dropCollection target => (.ok .ok, store.dropCollection target)
  | .listCollections schema => (.ok (.collectionList (store.collectionNames schema)), store)
  | .find target o lock => store.find session target o lock
  | .insert target documents upsert =>
    store.settle affected (store.insert session target documents upsert)
  | .update target o operations => store.settle affected (store.update session target o operations)
  | .delete target o => store.settle affected (store.delete session target o)
  | .count target =>
    ((store.rows target).map fun rows => .count (UInt64.ofNat rows.length), store)
  | .begin => (.ok .ok, store.begin session)
  | .commit => (.ok .ok, store.commit session)
  | .rollback => (.ok .ok, store.rollback session)

/-- Insert documents into a collection, which is created if it is not there; the answer is their
number. -/
def seed (store : Store) (session : SessionId) (target : CollectionName)
    (documents : List Document) : Except DocError Nat × Store :=
  match store.createCollection target true with
  | .error e => (.error e, store)
  | .ok created =>
    if documents.isEmpty then (.ok 0, created)
    else
      match created.insert session target (documents.map Value.obj) false with
      | .ok (count, seeded) => (.ok count, seeded)
      | .error e => (.error e, created)

end DocStore.Store
