import DocStore.Store.Basic

/-!
# Locks on rows

Any number of sessions may share a row, and one alone may have it exclusively.  A session that asks
again keeps the stronger of the lock it holds and the one it asks for.  Locks are held until the
session's transaction ends.
-/

namespace DocStore

/-- The stronger of two locks. -/
def RowLock.max (a b : RowLock) : RowLock := if a.covers b then a else b

/-- Whether two sessions cannot hold these locks on one row. -/
def RowLock.excludes (a b : RowLock) : Bool := a == .exclusive || b == .exclusive

namespace Holders

/-- Whether a session cannot have a lock for the locks of others. -/
def conflict (holders : Holders) (session : SessionId) (wanted : RowLock) : Bool :=
  holders.any fun holder => holder.1 != session && wanted.excludes holder.2

/-- The holders once a session has been given a lock. -/
def acquire (holders : Holders) (session : SessionId) (wanted : RowLock) : Holders :=
  Assoc.insert holders session
    (match Assoc.get? holders session with
      | some held => held.max wanted
      | none => wanted)

end Holders

namespace LockTable

def holders (locks : LockTable) (key : RowKey) : Holders := (Assoc.get? locks key).getD []

/-- Whether the locks of others keep a session from a lock on a row. -/
def conflict (locks : LockTable) (key : RowKey) (session : SessionId) (wanted : RowLock) : Bool :=
  Holders.conflict (holders locks key) session wanted

/-- Give a session a lock on a row. -/
def acquire (locks : LockTable) (session : SessionId) (wanted : RowLock) (key : RowKey) :
    LockTable :=
  Assoc.insert locks key (Holders.acquire (holders locks key) session wanted)

/-- Give a session a lock on each of some rows. -/
def acquireAll (locks : LockTable) (session : SessionId) (wanted : RowLock) (keys : List RowKey) :
    LockTable :=
  keys.foldl (fun locks key => acquire locks session wanted key) locks

/-- Take all locks of a session away. -/
def release (locks : LockTable) (session : SessionId) : LockTable :=
  locks.filterMap fun entry =>
    let others := Assoc.erase entry.2 session
    if others.isEmpty then none else some (entry.1, others)

/-- Forget the locks on the rows of a collection. -/
def forget (locks : LockTable) (target : CollectionName) : LockTable :=
  locks.filter fun entry => !(entry.1.collection = target)

end LockTable

end DocStore
