import DocStore.Identity
import DocStore.Request

/-!
# Client actions

A client talks to a server over a connection: it sends one request and is given the response or the
error that the server reports, and nothing is sent twice.  A `Client` action runs on a connection and
changes the server's side, whatever that is, and the source of identifiers; what an action has
changed stays changed if it fails later on.

A session is what the first exchange with a server has settled.
-/

namespace DocStore

/-- A connection to a server whose side has states in `σ`. -/
structure Connection (σ : Type) where
  send : Request → σ → Except DocError Response × σ
  /-- The version of the server that the connection leads to. -/
  version : Version

/-- All that client actions change. -/
structure ClientState (σ : Type) where
  server : σ
  ids : Identity
  clock : Clock

/-- An action of a client. -/
abbrev Client (σ : Type) := ReaderT (Connection σ) (ExceptT DocError (StateM (ClientState σ)))

namespace Client

variable {σ α : Type}

/-- Run an action on a connection. -/
def run (action : Client σ α) (connection : Connection σ) (state : ClientState σ) :
    Except DocError α × ClientState σ :=
  ((ReaderT.run action connection).run).run state

/-- The outcome of a computation without effects. -/
def ofExcept (outcome : Except DocError α) : Client σ α := MonadExcept.ofExcept outcome

/-- The outcome of an action as a value, so that its failure does not end the whole. -/
def attempt (action : Client σ α) : Client σ (Except DocError α) := fun connection =>
  ExceptT.mk ((ReaderT.run action connection).run.map .ok)

/-- Send a request. -/
def send (request : Request) : Client σ Response := fun connection =>
  ExceptT.mk fun state =>
    let (outcome, server) := connection.send request state.server
    (outcome, { state with server })

/-- Change the source of identifiers by the clock; nothing here fails. -/
def withIds (draw : Clock → Identity → α × Identity) : Client σ α := fun _ =>
  ExceptT.mk fun state =>
    let (a, ids) := draw state.clock state.ids
    (.ok a, { state with ids })

end Client

/-- What the client knows of its server and how it has been set up. -/
structure Session where
  version : Version
  /-- The schema in which the names of collections are looked up. -/
  schema : String
  /-- How many results a read without a limit gives at most. -/
  defaultLimit : Option UInt64
  deriving DecidableEq, Repr, Inhabited

/-- A collection of the session's schema; it need not exist. -/
structure Collection where
  session : Session
  target : CollectionName
  deriving DecidableEq, Repr, Inhabited

namespace Session

variable {σ : Type}

/-- How the client introduces itself: its name and its version. -/
def clientName : String := "monodoc/0.1.0"

/-- Exchange greetings with the server. -/
def connect (schema : String) (defaultLimit : Option UInt64) : Client σ Session := do
  let version ← match ← Client.send (.hello clientName) with
    | .welcome text => Client.ofExcept (Version.parse text)
    | .ok => pure (← read).version
    | other => throw (other.unexpected "hello")
  return { version, schema, defaultLimit }

/-- The handle of a collection; nothing is sent. -/
def collection (s : Session) (name : String) : Collection := ⟨s, ⟨s.schema, name⟩⟩

/-- Create a collection; with `reuse`, it may exist already. -/
def create (s : Session) (name : String) (reuse : Bool) : Client σ Collection := do
  let handle := s.collection name
  let _ ← Client.send (.createCollection handle.target reuse)
  return handle

def createCollection (s : Session) (name : String) : Client σ Collection := s.create name false

/-- Create a collection unless it exists. -/
def ensureCollection (s : Session) (name : String) : Client σ Collection := s.create name true

def dropCollection (s : Session) (name : String) : Client σ Unit := do
  let _ ← Client.send (.dropCollection (s.collection name).target)

/-- The names of the schema's collections. -/
def collectionNames (s : Session) : Client σ (List String) := do
  match ← Client.send (.listCollections s.schema) with
  | .collectionList names => return names
  | other => throw (other.unexpected "list_collections")

/-- Begin a transaction; one that is running is committed. -/
def begin : Client σ Unit := do let _ ← Client.send .begin

def commit : Client σ Unit := do let _ ← Client.send .commit

def rollback : Client σ Unit := do let _ ← Client.send .rollback

end Session

end DocStore
