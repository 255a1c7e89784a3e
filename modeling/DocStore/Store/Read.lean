import DocStore.Query
import DocStore.Store.Lock

/-!
# Reading from the store

A read selects the rows that its filter lets through.  A locking read then asks for a lock on each of
them: a row that another session keeps from it is left out, or fails the read, before any lock is
taken.  Outside a transaction the locks are asked for and not kept.
-/

namespace DocStore.Store

def lockWaitTimeout : DocError :=
  .server ServerCode.lockWaitTimeout "Lock wait timeout exceeded; try restarting transaction"

def lockNotAcquired : DocError :=
  .server ServerCode.lockNoWait
    "Statement aborted because lock(s) could not be acquired immediately and NOWAIT is set"

/-- The rows that a filter lets through. -/
def filterRows (filter : Option Expr) : Rows → Except DocError Rows
  | [] => .ok []
  | row :: rest => do
    let passes ← Expr.passes filter (.obj row.2)
    let others ← filterRows filter rest
    return if passes then row :: others else others

/-- The keys of the rows of a collection. -/
def keysOf (target : CollectionName) (rows : Rows) : List RowKey :=
  rows.map fun row => ⟨target, row.1⟩

/-- The error about a row that another session has locked; none if the row is to be left out.  A
server that heeds no rule for contention always waits in vain. -/
def contentionError? (version : Version) (option : Option LockOption) : Option DocError :=
  if version.supports Version.lockContention then
    match option with
    | none => some lockWaitTimeout
    | some .noWait => some lockNotAcquired
    | some .skipLocked => none
  else some lockWaitTimeout

/-- The rows that a session may lock. -/
def lockable (store : Store) (session : SessionId) (target : CollectionName) (lock : LockDirective)
    (rows : Rows) : Except DocError Rows :=
  let blocked (row : String × Document) : Bool :=
    store.locks.conflict ⟨target, row.1⟩ session lock.rowLock
  match contentionError? store.version lock.option with
  | some e => if rows.any blocked then .error e else .ok rows
  | none => .ok (rows.filter fun row => !blocked row)

/-- The rows of a read, all of which its session may lock if it asks for that. -/
def matchedRows (store : Store) (session : SessionId) (target : CollectionName) (o : Options)
    (lock : Option LockDirective) : Except DocError Rows := do
  if lock.isSome && !store.version.supports Version.rowLocking then
    throw (Version.unsupported Version.rowLocking)
  let rows ← filterRows o.filter (← store.rows target)
  match lock with
  | none => return rows
  | some directive => store.lockable session target directive rows

/-- Lock the rows of a read for the rest of the session's transaction. -/
def lockRows (store : Store) (session : SessionId) (target : CollectionName)
    (lock : Option LockDirective) (rows : Rows) : Store :=
  match lock with
  | some directive =>
    if store.inTransaction session then
      { store with
        locks := store.locks.acquireAll session directive.rowLock (keysOf target rows) }
    else store
  | none => store

/-- The results of rows that a read has matched. -/
def results (store : Store) (target : CollectionName) (o : Options) (rows : Rows) :
    Except DocError Response := do
  let stored ← store.rows target
  return .documents (← Query.select o (stored.map Prod.snd) (rows.map fun row => .obj row.2))

/-- Read from a collection.  The locks stay even if the results cannot be computed from the rows. -/
def find (store : Store) (session : SessionId) (target : CollectionName) (o : Options)
    (lock : Option LockDirective) : Except DocError Response × Store :=
  match store.matchedRows session target o lock with
  | .error e => (.error e, store)
  | .ok rows => (store.results target o rows, store.lockRows session target lock rows)

end DocStore.Store
