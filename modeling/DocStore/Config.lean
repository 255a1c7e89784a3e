import DocStore.Identity
import DocStore.Toml.Reader
import DocStore.Version

/-!
# Configuration

Settings are read from a TOML file of three sections, in which every entry may be left out and
unknown ones are passed over.  Variables of the environment override the file, and what results is
checked as a whole.
-/

namespace DocStore

/-- Why a file cannot be read. -/
inductive FileError where
  | missing | unreadable
  deriving DecidableEq, Repr, Inhabited

structure Config where
  /-- The version that a store of the client's own acts as. -/
  serverVersion : String
  /-- The schema in which the names of collections are looked up. -/
  schema : String
  /-- The label of the source of identifiers, if it is not to be made up. -/
  label : Option String
  /-- How many seconds pass before the source of identifiers reads the time again. -/
  interval : UInt64
  /-- How many results a read without a limit gives at most. -/
  defaultLimit : Option UInt64
  deriving DecidableEq, Repr, Inhabited

namespace Toml

/-- The field of a record, if the value is a record: a table gives fields by name, an array by
position, and a date has none. -/
def field? (record : Toml) (position : Nat) (name : String) : Option (Option Toml) :=
  match record with
  | .table _ entries => some (Assoc.get? entries name)
  | .arr items => some items[position]?
  | .tables elements => some (elements[position]?.map (.table .header))
  | .moment => some none
  | _ => none

/-- A field of a record read, or what stands for it if it is left out. -/
def fieldOr? {α : Type} (fallback : α) (read : Toml → Option α) (record : Toml) (position : Nat)
    (name : String) : Option α := do
  match ← record.field? position name with
  | some value => read value
  | none => return fallback

def text? : Toml → Option String
  | .str s => some s
  | _ => none

def natural? : Toml → Option UInt64
  | .int n => if 0 ≤ n then some (UInt64.ofNat n.toNat) else none
  | _ => none

end Toml

namespace Config

/-- The settings of an empty file. -/
def default : Config := ⟨"8.0.19", "test", none, 60, none⟩

/-- The settings of a document. -/
def ofToml? (document : Toml) : Option Config := do
  let record (position : Nat) (name : String) : Option Toml :=
    document.fieldOr? (.table .header []) some position name
  let session ← record 0 "session"
  let serverVersion ← session.fieldOr? default.serverVersion Toml.text? 0 "server_version"
  let schema ← session.fieldOr? default.schema Toml.text? 1 "schema"
  let identity ← record 1 "identity"
  let label ← identity.fieldOr? default.label (fun v => v.text?.map some) 0 "prefix"
  let interval ← identity.fieldOr? default.interval Toml.natural? 1 "refresh_interval_secs"
  let statement ← record 2 "statement"
  let defaultLimit ←
    statement.fieldOr? default.defaultLimit (fun v => v.natural?.map some) 0 "default_limit"
  return { serverVersion, schema, label, interval, defaultLimit }

def unreadableText : DocError := .config "the text is no TOML document of the known settings"

/-- The settings of a text, unchecked. -/
def read (text : String) : Except DocError Config :=
  match (Toml.parse? text).bind ofToml? with
  | some config => .ok config
  | none => .error unreadableText

/-! ### Checking -/

def invalidLabel (label : String) : DocError :=
  .config s!"identity.prefix must be 4 hex characters, got '{label}'"

def zeroLimit : DocError := .config "statement.default_limit must be greater than zero"

def version (config : Config) : Except DocError Version := Version.parse config.serverVersion

/-- Settings that can be used: the version can be read, the label is one, and the limit is not
zero. -/
def validate (config : Config) : Except DocError Config := do
  let _ ← config.version
  if let some label := config.label then
    if !Identity.isLabel label then throw (invalidLabel label)
  if config.defaultLimit = some 0 then throw zeroLimit
  return config

/-- The settings of a text. -/
def parse (text : String) : Except DocError Config := do (← read text).validate

/-- The source of identifiers of these settings; `fresh` is its label if none is set. -/
def identity (config : Config) (fresh : String) (now : UInt64) : Except DocError Identity :=
  Identity.create (config.label.getD fresh) config.interval now

end Config

/-! ### Where settings come from -/

/-- What decides on the settings of a run. -/
structure ConfigSources where
  /-- The arguments of the command line. -/
  args : List String
  /-- The variables of the environment. -/
  environment : String → Option String
  /-- The path of the file as the command line gives it, if its arguments have been read already. -/
  given : Option String

namespace ConfigSources

/-- Where settings are looked for if nothing says otherwise. -/
def defaultPath : String := "mdoc.toml"

/-- What follows a text's start, if it starts so. -/
def after? (start text : String) : Option String :=
  if start.toList.isPrefixOf text.toList then
    some (String.ofList (text.toList.drop start.toList.length))
  else none

/-- The path that the first option for it gives. -/
def pathIn? : List String → Option String
  | [] => none
  | [last] => (after? "--config=" last).or (after? "-c=" last)
  | arg :: path :: rest =>
    match (after? "--config=" arg).or (after? "-c=" arg) with
    | some attached => some attached
    | none => if arg = "--config" || arg = "-c" then some path else pathIn? (path :: rest)

/-- The path of the file with the settings. -/
def path (s : ConfigSources) (fallback : String) : String :=
  ((s.given.or (pathIn? s.args)).or (s.environment "MDOC_CONFIG")).getD fallback

/-- The settings with those that the environment overrides. -/
def override (s : ConfigSources) (config : Config) : Config :=
  { config with
    serverVersion := (s.environment "MDOC_SERVER_VERSION").getD config.serverVersion
    schema := (s.environment "MDOC_SCHEMA").getD config.schema
    label := (s.environment "MDOC_ID_PREFIX").or config.label }

def unreadableFile (path : String) : DocError := .io s!"cannot read {path}"

/-- The settings of a run; `file` is what reading their file has given.  A missing file is an empty
one. -/
def load (s : ConfigSources) (fallback : String) (file : String → Except FileError String) :
    Except DocError Config := do
  let path := s.path fallback
  let config ← match file path with
    | .ok text => Config.read text
    | .error .missing => pure Config.default
    | .error .unreadable => throw (unreadableFile path)
  (s.override config).validate

end ConfigSources

end DocStore
