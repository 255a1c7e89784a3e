import DocStore.Decimal.Numeral
import DocStore.Error
import DocStore.Text.Blank

/-!
# Server versions

A version has three parts and is ordered part by part.  Some features need a server of a version or
later.
-/

namespace DocStore

structure Version where
  major : UInt16
  minor : UInt16
  patch : UInt16
  deriving DecidableEq, Repr, Inhabited

namespace Version

/-- The first version with row locks on reads. -/
def rowLocking : Version := ⟨8, 0, 3⟩

/-- The first version that heeds what to do about a lock held by another session. -/
def lockContention : Version := ⟨8, 0, 5⟩

/-- The first version that can replace documents on insertion. -/
def upsert : Version := ⟨8, 0, 3⟩

/-- Whether `v` is `required` or a later version: the first part that differs decides. -/
def supports (v required : Version) : Bool :=
  required.major < v.major
    || required.major = v.major
      && (required.minor < v.minor || required.minor = v.minor && required.patch ≤ v.patch)

def text (v : Version) : String :=
  s!"{v.major.toNat}.{v.minor.toNat}.{v.patch.toNat}"

/-- The error about a feature that needs a later server. -/
def unsupported (required : Version) : DocError :=
  .capability s!"This functionality is only supported from server version {required.text} onwards."

/-! ### Reading -/

def invalidComponent (name source : String) : DocError :=
  .config s!"Invalid {name} component in server version '{source}'"

def invalid (source : String) : DocError := .config s!"Invalid server version '{source}'"

/-- The parts of a text between points. -/
def splitAtPoints : List Char → List (List Char)
  | [] => [[]]
  | c :: cs =>
    match splitAtPoints cs with
    | part :: rest => if c = '.' then [] :: part :: rest else (c :: part) :: rest
    | [] => [[c]]

/-- A part of a version, zero if it is missing. -/
def component (source name : String) : Option (List Char) → Except DocError UInt16
  | none => .ok 0
  | some digits =>
    match Decimal.naturalBelow? UInt16.size digits with
    | some n => .ok (UInt16.ofNat n)
    | none => .error (invalidComponent name source)

/-- Read a version such as `8`, `8.0` or `8.0.19`, ignoring blanks around it and anything from a
hyphen or space on. -/
def parse (source : String) : Except DocError Version := do
  let core := (Text.trim source.toList).takeWhile fun c => !(c == '-' || c == ' ')
  let parts := splitAtPoints core
  let major ← component source "major" parts[0]?
  let minor ← component source "minor" parts[1]?
  let patch ← component source "patch" parts[2]?
  if parts.length > 3 then throw (invalid source)
  return ⟨major, minor, patch⟩

end Version

end DocStore
