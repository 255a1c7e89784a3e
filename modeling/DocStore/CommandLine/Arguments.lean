/-!
# Arguments of a command line

An argument that starts with two hyphens names an option, one that starts with a single hyphen is a
run of option letters, and two hyphens alone end the options.  The value of an option follows an
equals sign, or the letter, or is the next argument, which must not look like an option then.
-/

namespace DocStore.CommandLine

/-- An option of a command. -/
structure OptionName where
  /-- The name after two hyphens. -/
  long : String
  /-- The letter after one hyphen. -/
  letter : Option Char
  takesValue : Bool
  deriving DecidableEq, Repr, Inhabited

inductive Argument where
  | option (name value : String)
  | flag (name : String)
  | plain (text : String)
  deriving DecidableEq, Repr, Inhabited

/-- Where reading the arguments of a command has stopped. -/
inductive Ending where
  | done
  /-- At a request for help -/
  | help
  /-- At a request for the version -/
  | version
  /-- At an argument that cannot stand there -/
  | invalid
  /-- At the name of a command, which has further arguments -/
  | command (name : String) (rest : List String)
  deriving DecidableEq, Repr, Inhabited

/-- What an argument with options leaves to be done. -/
inductive Step where
  | go
  /-- The next argument is the value of an option. -/
  | await (name : String)
  | stop (ending : Ending)
  deriving DecidableEq, Repr, Inhabited

/-- Split a text at its first equals sign. -/
def splitEquals? (cs : List Char) : Option (String × String) :=
  match cs.dropWhile (· != '=') with
  | _ :: value => some (String.ofList (cs.takeWhile (· != '=')), String.ofList value)
  | [] => none

/-- What an option without value asks for. -/
def flagStep (name : String) : List Argument × Step :=
  match name with
  | "help" => ([], .stop .help)
  | "version" => ([], .stop .version)
  | _ => ([.flag name], .go)

/-- An argument after two hyphens. -/
def longOption (known : List OptionName) (text : List Char) : List Argument × Step :=
  let (name, value) := match splitEquals? text with
    | some (name, value) => (name, some value)
    | none => (String.ofList text, none)
  match known.find? fun option => option.long = name, value with
  | none, _ => ([], .stop .invalid)
  | some option, some value =>
    if option.takesValue then ([.option option.long value], .go) else ([], .stop .invalid)
  | some option, none =>
    if option.takesValue then ([], .await option.long) else flagStep option.long

/-- The letters after one hyphen.  What follows the letter of an option with a value is its value. -/
def letters (known : List OptionName) : List Char → List Argument × Step
  | [] => ([], .go)
  | c :: cs =>
    match known.find? fun option => option.letter = some c with
    | none => ([], .stop .invalid)
    | some option =>
      if option.takesValue then
        match cs with
        | [] => ([], .await option.long)
        | '=' :: value => ([.option option.long (String.ofList value)], .go)
        | value => ([.option option.long (String.ofList value)], .go)
      else
        match flagStep option.long with
        | (found, .go) =>
          let (more, step) := letters known cs
          (found ++ more, step)
        | stopped => stopped

/-- Whether an argument looks like options. -/
def isOption (arg : String) : Bool :=
  match arg.toList with
  | '-' :: _ :: _ => true
  | _ => false

/-- Read the arguments of a command, which may have the commands of some names below it.  `awaited`
is the option whose value comes next. -/
def scan (known : List OptionName) (commands : List String) (awaited : Option String) :
    List String → List Argument × Ending
  | [] => ([], if awaited.isSome then .invalid else .done)
  | arg :: rest =>
    match awaited with
    | some name =>
      if isOption arg then ([], .invalid)
      else
        let (more, ending) := scan known commands none rest
        (.option name arg :: more, ending)
    | none =>
      if !isOption arg then
        if commands.contains arg then ([], .command arg rest)
        else
          let (more, ending) := scan known commands none rest
          (.plain arg :: more, ending)
      else if arg = "--" then (rest.map .plain, .done)
      else
        let (found, step) := match arg.toList with
          | '-' :: '-' :: text => longOption known text
          | text => letters known (text.drop 1)
        match step with
        | .go =>
          let (more, ending) := scan known commands none rest
          (found ++ more, ending)
        | .await name =>
          let (more, ending) := scan known commands (some name) rest
          (found ++ more, ending)
        | .stop ending => (found, ending)

end DocStore.CommandLine
