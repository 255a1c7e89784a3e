import DocStore.CommandLine.Arguments
import DocStore.Decimal.Numeral

/-!
# Commands

`Invocation.ofArgs` says what a command line asks for.  An option may be given once, unless it says
otherwise, and what is wrong with a command line is found from left to right: a request for help
counts if nothing before it is wrong.
-/

namespace DocStore.CommandLine

/-- What an expression is read as. -/
inductive Grammar where
  | filter | sort | projection | group | path
  deriving DecidableEq, Repr, Inhabited

namespace Grammar

def all : List Grammar := [.filter, .sort, .projection, .group, .path]

def name : Grammar → String
  | .filter => "filter" | .sort => "sort" | .projection => "projection"
  | .group => "group" | .path => "path"

def ofName? (name : String) : Option Grammar := all.find? fun g => g.name = name

end Grammar

/-- What to select from the documents of a file. -/
structure Selection where
  /-- The path of a file that holds an array of documents. -/
  data : String
  filter : Option String
  sort : List String
  limit : Option Int64
  offset : Option Int64
  /-- Values for placeholders, as `name=value`. -/
  bindings : List String
  /-- The collection that the documents are put into. -/
  collection : String
  deriving DecidableEq, Repr, Inhabited

inductive Command where
  /-- Print the canonical text of an expression, or its tree. -/
  | parse (source : String) (grammar : Grammar) (asTree : Bool)
  /-- Print new identifiers. -/
  | ids (count : Nat)
  /-- Print the documents that a selection finds. -/
  | run (selection : Selection)
  deriving DecidableEq, Repr, Inhabited

/-- What a command line asks for. -/
inductive Invocation where
  /-- A command, with the path of the settings if it is given. -/
  | command (config : Option String) (command : Command)
  /-- Help on the program or on one of its commands -/
  | help (topic : Option String)
  | version
  /-- Nothing that can be done -/
  | invalid
  deriving DecidableEq, Repr, Inhabited

/-! ### Forms of commands -/

/-- The arguments of a command, sorted out. -/
structure Given where
  options : List (String × String)
  flags : List String
  plain : List String
  deriving Inhabited

namespace Given

def empty : Given := ⟨[], [], []⟩

/-- The value of an option. -/
def value? (given : Given) (name : String) : Option String :=
  (given.options.find? fun entry => entry.1 = name).map Prod.snd

/-- All values of an option, in order. -/
def values (given : Given) (name : String) : List String :=
  (given.options.filter fun entry => entry.1 = name).map Prod.snd

end Given

/-- The arguments that a command takes. -/
structure Form where
  options : List OptionName
  /-- The options that may be given more than once. -/
  repeatable : List String
  /-- How many arguments it takes that belong to no option. -/
  plain : Nat

def configOption : OptionName := ⟨"config", some 'c', true⟩

def helpOption : OptionName := ⟨"help", some 'h', false⟩

namespace Form

/-- The options before the name of a command. -/
def program : Form := ⟨[configOption, helpOption, ⟨"version", some 'V', false⟩], [], 0⟩

def parse : Form :=
  ⟨[configOption, helpOption, ⟨"kind", some 'k', true⟩, ⟨"json", none, false⟩], [], 1⟩

def ids : Form := ⟨[configOption, helpOption, ⟨"count", some 'n', true⟩], [], 0⟩

def run : Form :=
  ⟨[configOption, helpOption, ⟨"data", some 'd', true⟩, ⟨"filter", some 'f', true⟩,
    ⟨"sort", some 's', true⟩, ⟨"limit", some 'l', true⟩, ⟨"offset", some 'o', true⟩,
    ⟨"bind", some 'b', true⟩, ⟨"collection", none, true⟩], ["sort", "bind"], 0⟩

end Form

def number? (text : String) : Option Int64 := Decimal.int64? text.toList

def count? (text : String) : Option Nat := (Decimal.uint64? text.toList).map UInt64.toNat

/-- Whether an option can have a value. -/
def isValueOf (name value : String) : Bool :=
  match name with
  | "config" | "data" => !value.isEmpty
  | "kind" => (Grammar.ofName? value).isSome
  | "count" => (count? value).isSome
  | "limit" | "offset" => (number? value).isSome
  | _ => true

/-- Add an argument to those before it. -/
def Form.add (form : Form) (given : Given) : Argument → Option Given
  | .option name value =>
    if !isValueOf name value then none
    else if (given.value? name).isSome && !form.repeatable.contains name then none
    else some { given with options := given.options ++ [(name, value)] }
  | .flag name =>
    if given.flags.contains name then none
    else some { given with flags := given.flags ++ [name] }
  | .plain text =>
    if given.plain.length < form.plain then some { given with plain := given.plain ++ [text] }
    else none

/-- Sort arguments out; none if one of them cannot be given. -/
def Form.accept (form : Form) (arguments : List Argument) : Option Given :=
  arguments.foldlM form.add Given.empty

/-! ### Reading command lines -/

/-- The commands and the forms of their arguments. -/
def commands : List (String × Form) := [("parse", .parse), ("ids", .ids), ("run", .run)]

/-- A number that an option gives. -/
def Given.number? (given : Given) (name : String) : Option Int64 :=
  (given.value? name).bind CommandLine.number?

/-- The command of a name; none if it lacks an argument that it requires. -/
def Command.ofGiven? (name : String) (given : Given) : Option Command :=
  match name with
  | "parse" => do
    let grammar := ((given.value? "kind").bind Grammar.ofName?).getD .filter
    return .parse (← given.plain.head?) grammar (given.flags.contains "json")
  | "ids" => some (.ids (((given.value? "count").bind count?).getD 1))
  | "run" => do
    return .run {
      data := ← given.value? "data"
      filter := given.value? "filter"
      sort := given.values "sort"
      limit := given.number? "limit"
      offset := given.number? "offset"
      bindings := given.values "bind"
      collection := (given.value? "collection").getD "data" }
  | _ => none

/-- Read the arguments of a command; `config` is what stands before its name. -/
def Invocation.ofCommand (config : Option String) (name : String) (form : Form)
    (args : List String) : Invocation :=
  let (arguments, ending) := scan form.options [] none args
  match form.accept arguments with
  | none => .invalid
  | some given =>
    match ending with
    | .help => .help (some name)
    | .done =>
      match Command.ofGiven? name given with
      | some found => .command ((given.value? "config").or config) found
      | none => .invalid
    | _ => .invalid

/-- The help on a command, asked for by its name. -/
def Invocation.ofHelp (topics : List String) : Invocation :=
  match topics with
  | [] => .help none
  | [topic] => if (commands.map Prod.fst).contains topic then .help (some topic) else .invalid
  | _ => .invalid

/-- What the arguments of the program ask for. -/
def Invocation.ofArgs (args : List String) : Invocation :=
  let (arguments, ending) := scan Form.program.options ("help" :: commands.map Prod.fst) none args
  match Form.program.accept arguments with
  | none => .invalid
  | some given =>
    match ending with
    | .command name rest =>
      match commands.find? fun entry => entry.1 = name with
      | some (_, form) => ofCommand (given.value? "config") name form rest
      | none => ofHelp rest
    | .help => .help none
    | .version => .version
    | .done | .invalid => .invalid

end DocStore.CommandLine
