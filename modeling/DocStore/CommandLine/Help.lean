import DocStore.CommandLine.Command

/-!
# Help texts
-/

namespace DocStore.CommandLine

/-- The name and the version of the program. -/
def versionText : String := "mdoc 0.1.0"

/-- Lines of two columns, the second one aligned. -/
def columns (rows : List (String × String)) : List String :=
  let width := (rows.map fun row => row.1.length).foldl max 0
  rows.map fun (left, right) =>
    "  " ++ left ++ String.ofList (List.replicate (width - left.length) ' ') ++ "  " ++ right

def configRow : String × String :=
  ("-c, --config <CONFIG>", "Configuration file (default: mdoc.toml)")

def helpRow : String × String := ("-h, --help", "Print help")

/-- What each command does. -/
def about : Option String → String
  | none =>
    "Compile document-store expressions and run them against an in-memory collection"
  | some "parse" => "Compile an expression and print the result"
  | some "ids" => "Generate document identifiers"
  | some _ => "Load documents from a JSON file and print those a find selects"

/-- How each command is called. -/
def usage : Option String → String
  | none => "Usage: mdoc [OPTIONS] <COMMAND>"
  | some "parse" => "Usage: mdoc parse [OPTIONS] <EXPR>"
  | some "ids" => "Usage: mdoc ids [OPTIONS]"
  | some _ => "Usage: mdoc run [OPTIONS] --data <DATA>"

/-- The options of each command. -/
def optionRows : Option String → List (String × String)
  | none => [configRow, helpRow, ("-V, --version", "Print version")]
  | some "parse" => [configRow,
      ("-k, --kind <KIND>", "Which grammar to compile with [default: filter] [possible values: "
        ++ ", ".intercalate (Grammar.all.map Grammar.name) ++ "]"),
      ("    --json", "Print the compiled tree as JSON instead of canonical text"), helpRow]
  | some "ids" => [configRow, ("-n, --count <COUNT>", "[default: 1]"), helpRow]
  | some _ => [configRow, ("-d, --data <DATA>", "JSON array of documents"),
      ("-f, --filter <FILTER>", ""), ("-s, --sort <SORT>", "Sort clauses, e.g. \"pages desc\""),
      ("-l, --limit <LIMIT>", ""), ("-o, --offset <OFFSET>", ""),
      ("-b, --bind <BIND>", "Placeholder value as name=value; the value is read as JSON and falls back to a plain string"),
      ("    --collection <COLLECTION>",
        "Collection the documents are loaded into [default: data]"), helpRow]

/-- The lists before the options of each command. -/
def leadingLines : Option String → List String
  | none =>
    ["Commands:"] ++ columns ((commands.map fun command => (command.1, about (some command.1)))
      ++ [("help", "Print this message or the help of the given subcommand(s)")]) ++ [""]
  | some "parse" => ["Arguments:"] ++ columns [("<EXPR>", "")] ++ [""]
  | some _ => []

/-- The lines of the help on the program or on a command. -/
def helpLines (topic : Option String) : List String :=
  [about topic, "", usage topic, ""] ++ leadingLines topic ++ ["Options:"]
    ++ columns (optionRows topic)

end DocStore.CommandLine
