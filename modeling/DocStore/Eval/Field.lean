import DocStore.Path
import DocStore.Value.Basic

/-!
# What a path addresses

A path may address any number of values in a document.  As the value of a field, a path without
wildcards is the one value it addresses, and a path with wildcards the array of all of them.
-/

namespace DocStore

mutual

/-- A value and all values inside it, each before those inside it. -/
def Value.descendants : Value → List Value
  | .arr items => .arr items :: descendantsOfItems items
  | .obj members => .obj members :: descendantsOfMembers members
  | other => [other]

def Value.descendantsOfItems : List Value → List Value
  | [] => []
  | item :: rest => item.descendants ++ descendantsOfItems rest

def Value.descendantsOfMembers : List (String × Value) → List Value
  | [] => []
  | (_, value) :: rest => value.descendants ++ descendantsOfMembers rest

end

/-- The values one segment leads to.  Any value but an array acts as an array of itself under the
index zero. -/
def Segment.step (segment : Segment) (value : Value) : List Value :=
  match segment, value with
  | .member name, v => (v.get? name).toList
  | .memberWildcard, .obj members => members.map Prod.snd
  | .memberWildcard, _ => []
  | .index n, .arr items => (items[n.toNat]?).toList
  | .index n, v => if n = 0 then [v] else []
  | .indexWildcard, .arr items => items
  | .indexWildcard, _ => []
  | .doubleWildcard, v => v.descendants

namespace Path

/-- All values that a path addresses, in the order of the document. -/
def resolve (path : Path) (root : Value) : List Value :=
  path.segments.foldl (fun values segment => values.flatMap segment.step) [root]

/-- The value of a field; null if the path leads nowhere. -/
def valueIn (path : Path) (root : Value) : Value :=
  let values := path.resolve root
  if path.isExact then values.headD .null
  else if values.isEmpty then .null
  else .arr values

end Path

end DocStore
