import DocStore.Error
import DocStore.Json.Printer

/-!
# Document identifiers

An identifier is made of three hexadecimal parts: a label of four digits, fixed for the source, a
time of eight and a serial of sixteen.  Within one source the serial goes up by one each time and
the time never goes back, so identifiers sort in the order in which they were made.
-/

namespace DocStore

/-- The times that a clock shows, in seconds, one for each look at it.  It may show a time before the
one it has shown last. -/
abbrev Clock := Nat → UInt64

namespace Clock

/-- The clock that always shows one time. -/
def steady (now : UInt64) : Clock := fun _ => now

/-- The clock after a look at it. -/
def tail (clock : Clock) : Clock := fun n => clock (n + 1)

end Clock

/-- A source of identifiers. -/
structure Identity where
  /-- The four digits that every identifier starts with. -/
  label : String
  /-- How many seconds pass before the time is read again. -/
  interval : UInt64
  /-- The time that identifiers show. -/
  timestamp : UInt64
  /-- When the clock was last taken up. -/
  refreshedAt : UInt64
  /-- The serial of the identifier made last. -/
  serial : UInt64
  deriving DecidableEq, Repr, Inhabited

namespace Identity

def labelLength : Nat := 4

def timeLength : Nat := 8

def serialLength : Nat := 16

/-- The last `count` hexadecimal digits of a number, in lower case. -/
def hexDigits : Nat → Nat → List Char
  | 0, _ => []
  | count + 1, n => hexDigits count (n / 16) ++ [Json.hexDigit (n % 16)]

def isHexDigit (c : Char) : Bool :=
  c.isDigit || ('a' ≤ c && c ≤ 'f') || ('A' ≤ c && c ≤ 'F')

/-- Whether a text can be a source's label. -/
def isLabel (text : String) : Bool :=
  text.toList.length == labelLength && text.toList.all isHexDigit

def invalidLabel (text : String) : DocError :=
  .config s!"Identifier prefix must be {labelLength} hex characters, got '{text}'"

/-- A source with a label, at a time in seconds. -/
def create (label : String) (interval now : UInt64) : Except DocError Identity :=
  if isLabel label then .ok ⟨label.toLower, interval, now, now, 0⟩
  else .error (invalidLabel label)

/-- The serial of the identifier made last, as text. -/
def serialText (source : Identity) : String :=
  String.ofList (hexDigits serialLength source.serial.toNat)

/-- The source after a look at the clock.  The clock is taken up once the interval has passed since
it was taken up last; a clock that went back does not take the time back. -/
def refresh (source : Identity) (now : UInt64) : Identity :=
  if source.interval.toNat ≤ now.toNat - source.refreshedAt.toNat then
    { source with
      refreshedAt := now
      timestamp := if source.timestamp < now then now else source.timestamp }
  else source

/-- The identifier that a source shows at present. -/
def text (source : Identity) : String :=
  source.label ++ String.ofList (hexDigits timeLength source.timestamp.toNat) ++ source.serialText

/-- The next identifier at a time in seconds, and the source after it. -/
def next (source : Identity) (now : UInt64) : String × Identity :=
  let refreshed := source.refresh now
  let advanced := { refreshed with serial := refreshed.serial + 1 }
  (advanced.text, advanced)

end Identity

end DocStore
