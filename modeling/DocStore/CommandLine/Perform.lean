import DocStore.Client.Collection
import DocStore.CommandLine.Help
import DocStore.Config
import DocStore.Store.Connection
import DocStore.Wire.Request

/-!
# Performing commands

`perform` gives all that a run of the program prints and its exit status.  What the run reads of its
surroundings is in the `Host`.
-/

namespace DocStore.CommandLine

/-- The surroundings of a run. -/
structure Host where
  /-- The name of the program and its arguments. -/
  args : List String
  /-- The variables of the environment. -/
  environment : String → Option String
  /-- The files. -/
  file : String → Except FileError String
  /-- The time in seconds. -/
  now : UInt64
  /-- A label for identifiers if the settings name none. -/
  freshLabel : String

/-- What a run prints, and its exit status. -/
structure Outcome where
  status : Nat
  /-- The lines of the output. -/
  output : List String
  /-- The error that ended the run. -/
  message : Option String
  deriving DecidableEq, Repr, Inhabited

namespace Outcome

def printed (output : List String) : Outcome := ⟨0, output, none⟩

/-- A run that ends with an error and has printed nothing. -/
def failed (message : String) : Outcome := ⟨1, [], some ("Error: " ++ message)⟩

/-- A command line that asks for nothing that can be done. -/
def misused : Outcome := ⟨2, [], some (usage none)⟩

end Outcome

/-! ### Expressions -/

/-- The canonical text of clauses, or their trees as a list. -/
def renderList {α : Type} (asTree : Bool) (text : α → String) (tree : α → Json) (clauses : List α) :
    String :=
  if asTree then (Json.arr (clauses.map tree)).pretty else clauseList (clauses.map text)

/-- The canonical text of a text that is read by some grammar, or its tree. -/
def render (source : String) (grammar : Grammar) (asTree : Bool) : Except ParseError String :=
  match grammar with
  | .filter => do
    let e ← Expr.parse source
    return if asTree then e.toJson.pretty else e.text
  | .sort => (SortKey.parseList source).map (renderList asTree SortKey.text SortKey.toJson)
  | .projection => (Column.parseList source).map (renderList asTree Column.text Column.toJson)
  | .group => (Expr.parseList source).map (renderList asTree Expr.text Expr.toJson)
  | .path => do
    let path ← Path.parse source
    return if asTree then path.toJson.pretty else path.text

/-! ### Identifiers -/

/-- So many identifiers, one after the other. -/
def takeIds (now : UInt64) : Nat → Identity → List String
  | 0, _ => []
  | count + 1, ids =>
    let (id, after) := ids.next now
    id :: takeIds now count after

/-! ### Selections -/

/-- An error of a command, as it is shown. -/
abbrev Message := String

/-- A placeholder's name and value, the value being JSON or else a plain text. -/
def readBinding (text : String) : Except Message (String × Value) :=
  match splitEquals? text.toList with
  | some (name, value) =>
    .ok (String.ofList (Text.trim name.toList), (Value.parse? value).getD (.str value))
  | none => .error s!"Binding '{text}' must be written as name=value"

def shown {α : Type} (outcome : Except DocError α) : Except Message α :=
  outcome.mapError DocError.display

/-- The statement of a selection. -/
def Selection.statement (s : Selection) (c : Collection) : Except Message (Statement .find) := do
  let mut statement ← match s.filter with
    | some condition => shown (c.find condition)
    | none => pure c.findAll
  if !s.sort.isEmpty then statement ← shown (statement.sort s.sort)
  if let some rows := s.limit then statement ← shown (statement.limit rows)
  if let some rows := s.offset then statement ← shown (statement.offset rows)
  for binding in s.bindings do
    let (name, value) ← readBinding binding
    statement := statement.bind name value
  return statement

/-- Put documents into a collection of a new session. -/
def loadDocuments (config : Config) (collection : String) (documents : List Json) :
    Client Store Collection := do
  let session ← Session.connect config.schema config.defaultLimit
  let c ← session.ensureCollection collection
  if !documents.isEmpty then
    let addition ← Client.ofExcept (c.add (documents.map .json))
    let (outcome, _) ← addition.execute
    let _ ← Client.ofExcept outcome
  return c

/-- The documents of a file. -/
def readDocuments (host : Host) (path : String) : Except Message (List Json) := do
  let text ← match host.file path with
    | .ok text => pure text
    | .error _ => throw s!"Failed to read {path}"
  match Json.parse? text with
  | some (.arr documents) => return documents
  | _ => throw s!"{path} must hold a JSON array of documents"

/-- The documents that a selection finds, as lines of JSON. -/
def Selection.find (s : Selection) (host : Host) (config : Config) :
    Except Message (List String) := do
  let documents ← readDocuments host s.data
  let version ← shown config.version
  let ids ← shown (config.identity host.freshLabel host.now)
  let (slot, store) := (Store.empty version).openSession
  let connection := Store.connection version slot
  let (loaded, state) := (loadDocuments config s.collection documents).run connection
    ⟨store, ids, Clock.steady host.now⟩
  let c ← shown loaded
  let statement ← s.statement c
  let (found, _) := statement.fetch.run connection state
  return (← shown found).documents.map fun doc => (Value.obj doc).text

/-! ### Runs -/

/-- The lines that a command prints. -/
def Command.lines (host : Host) (config : Config) : Command → Except Message (List String)
  | .parse source grammar asTree =>
    ((render source grammar asTree).map fun text => [text]).mapError ParseError.message
  | .ids count => do return takeIds host.now count (← shown (config.identity host.freshLabel host.now))
  | .run selection => selection.find host config

/-- What decides on the settings of a command. -/
def configSources (host : Host) (given : Option String) : ConfigSources :=
  ⟨host.args, host.environment, given⟩

/-- Do what the command line asks for. -/
def perform (host : Host) : Outcome :=
  match Invocation.ofArgs (host.args.drop 1) with
  | .invalid => .misused
  | .help topic => .printed (helpLines topic)
  | .version => .printed [versionText]
  | .command given command =>
    match (configSources host given).load ConfigSources.defaultPath host.file with
    | .error _ => .failed "Failed to load configuration"
    | .ok config =>
      match command.lines host config with
      | .ok lines => .printed lines
      | .error message => .failed message

/-- The paths of the files that a run may read. -/
def paths (args : List String) (environment : String → Option String) : List String :=
  match Invocation.ofArgs (args.drop 1) with
  | .command given command =>
    let config := ConfigSources.path ⟨args, environment, given⟩ ConfigSources.defaultPath
    match command with
    | .run selection => [config, selection.data]
    | _ => [config]
  | _ => []

end DocStore.CommandLine
