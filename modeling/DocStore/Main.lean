import DocStore.CommandLine.Perform
import Std.Time.DateTime.Timestamp

/-!
# The program

Reads what a run needs of its surroundings, performs it, and prints what comes of it.
-/

namespace DocStore.CommandLine

/-- The content of a file. -/
def readFile (path : String) : IO (Except FileError String) := do
  try return .ok (← IO.FS.readFile path)
  catch
    | .noFileOrDirectory .. => return .error .missing
    | _ => return .error .unreadable

/-- The variables of the environment that a run heeds. -/
def variableNames : List String :=
  ["MDOC_CONFIG", "MDOC_SERVER_VERSION", "MDOC_SCHEMA", "MDOC_ID_PREFIX"]

/-- Four random hexadecimal digits. -/
def randomLabel : IO String := do
  return String.ofList (Identity.hexDigits Identity.labelLength (← IO.rand 0 0xFFFF))

end DocStore.CommandLine

open DocStore CommandLine

def main (arguments : List String) : IO UInt32 := do
  let args := "mdoc" :: arguments
  let known ← variableNames.mapM fun name => do return (name, ← IO.getEnv name)
  let environment (name : String) : Option String := (Assoc.get? known name).join
  let files ← (paths args environment).mapM fun path => do
    return (path, ← readFile path)
  let outcome := perform {
    args, environment
    file := fun path => (Assoc.get? files path).getD (.error .missing)
    now := UInt64.ofNat (← Std.Time.Timestamp.now).toSecondsSinceUnixEpoch.val.toNat
    freshLabel := ← randomLabel }
  for line in outcome.output do IO.println line
  if let some message := outcome.message then IO.eprintln message
  return UInt32.ofNat outcome.status
