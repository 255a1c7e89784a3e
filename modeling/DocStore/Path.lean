/-!
# Document paths

A path leads from a document (`$`) to the places it addresses, one segment at a time.
-/

namespace DocStore

inductive Segment where
  /-- The member of a name: `.name` -/
  | member (name : String)
  /-- Every member: `.*` -/
  | memberWildcard
  /-- The item at an index: `[n]` -/
  | index (n : UInt32)
  /-- Every item: `[*]` -/
  | indexWildcard
  /-- Every place below, at any depth: `**` -/
  | doubleWildcard
  deriving DecidableEq, Repr, Inhabited

/-- A path from the root of a document; without segments it is the document itself. -/
structure Path where
  segments : List Segment
  deriving DecidableEq, Repr, Inhabited

namespace Segment

/-- Whether the segment addresses one place only. -/
def isExact : Segment → Bool
  | .member _ | .index _ => true
  | _ => false

/-- A letter or underscore. -/
def isNameStart (c : Char) : Bool := c.isAlpha || c = '_'

/-- A letter, digit or underscore. -/
def isNameChar (c : Char) : Bool := c.isAlphanum || c = '_'

/-- Whether a member's name is written bare. -/
def isPlainName (name : String) : Bool :=
  match name.toList with
  | [] => false
  | c :: cs => isNameStart c && cs.all isNameChar

/-- A quoted name, with a backslash before each quote inside it. -/
def quoteName (name : String) : String :=
  let escaped := name.toList.flatMap fun c => if c = '"' then ['\\', '"'] else [c]
  String.ofList ('"' :: (escaped ++ ['"']))

def text : Segment → String
  | .member name => "." ++ if isPlainName name then name else quoteName name
  | .memberWildcard => ".*"
  | .index n => "[" ++ toString n.toNat ++ "]"
  | .indexWildcard => "[*]"
  | .doubleWildcard => "**"

end Segment

namespace Path

/-- The path of a single member. -/
def ofMember (name : String) : Path := ⟨[.member name]⟩

def isRoot (path : Path) : Bool := path.segments.isEmpty

/-- Whether every segment addresses one place only. -/
def isExact (path : Path) : Bool := path.segments.all Segment.isExact

/-- The name of the member the path starts with. -/
def firstMember? (path : Path) : Option String :=
  match path.segments with
  | .member name :: _ => some name
  | _ => none

/-- The canonical text of a path. -/
def text (path : Path) : String := "$" ++ String.join (path.segments.map Segment.text)

end Path

end DocStore
