import DocStore.Request
import DocStore.Value.Document

/-!
# The store

A store holds collections of documents and serves any number of sessions.  Each session may run a
transaction; while it does, the store remembers how to undo its writes and which rows it has locked.

A collection keeps its documents in the order in which their identifiers came, each under the text
of its identifier, so `1` and `"1"` identify the same document.
-/

namespace DocStore

/-- The documents of a collection, each under the text of its identifier. -/
abbrev Rows := List (String × Document)

/-- The number of a session; sessions are numbered in the order in which they are opened. -/
abbrev SessionId := Nat

/-- A row of a collection, be it there or not. -/
structure RowKey where
  collection : CollectionName
  id : String
  deriving DecidableEq, Repr, Inhabited

/-- The sessions that hold a lock on a row. -/
abbrev Holders := List (SessionId × RowLock)

/-- The locks on rows.  A row that nobody has locked has no entry. -/
abbrev LockTable := List (RowKey × Holders)

/-- What a row was before a write: its place and document, or nothing if it was not there. -/
structure Undo where
  row : RowKey
  before : Option (Nat × Document)
  deriving Inhabited

structure SessionState where
  inTransaction : Bool
  /-- The writes of the transaction, the latest first. -/
  undo : List Undo
  deriving Inhabited

/-- The state of a session that runs no transaction. -/
def SessionState.idle : SessionState := ⟨false, []⟩

structure Store where
  /-- The version that the store reports and acts as. -/
  version : Version
  /-- The collections in the order in which they were created. -/
  collections : List (CollectionName × Rows)
  locks : LockTable
  /-- The open sessions. -/
  sessions : List (SessionId × SessionState)
  nextSession : SessionId
  deriving Inhabited

namespace Store

/-- A store without collections and sessions. -/
def empty (version : Version) : Store := ⟨version, [], [], [], 0⟩

def noSuchCollection (target : CollectionName) : DocError :=
  .server ServerCode.noSuchCollection s!"Table '{target.text}' doesn't exist"

/-- The rows of a collection, if it exists. -/
def rows? (store : Store) (target : CollectionName) : Option Rows :=
  Assoc.get? store.collections target

/-- The rows of a collection, which must exist. -/
def rows (store : Store) (target : CollectionName) : Except DocError Rows :=
  match store.rows? target with
  | some rows => .ok rows
  | none => .error (noSuchCollection target)

/-- The row of a key, if it is there. -/
def row? (store : Store) (key : RowKey) : Option Document :=
  (store.rows? key.collection).bind fun rows => Assoc.get? rows key.id

def session? (store : Store) (session : SessionId) : Option SessionState :=
  Assoc.get? store.sessions session

/-- Whether a session is open and runs a transaction. -/
def inTransaction (store : Store) (session : SessionId) : Bool :=
  (store.session? session).any SessionState.inTransaction

/-- Change the state of a session, if it is open. -/
def modifySession (store : Store) (session : SessionId) (f : SessionState → SessionState) : Store :=
  { store with sessions := Assoc.modify store.sessions session f }

/-- Open a session; the answer is its number. -/
def openSession (store : Store) : SessionId × Store :=
  (store.nextSession,
    { store with
      sessions := Assoc.insert store.sessions store.nextSession .idle
      nextSession := store.nextSession + 1 })

end Store

end DocStore
