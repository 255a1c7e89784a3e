import DocStore.Error
import DocStore.Value.Json

/-!
# Documents from what callers have

A caller gives a document as JSON text, as a tree, as a value or as a record of its own.  Whatever is
given must be an object.
-/

namespace DocStore

/-- The member that identifies a document. -/
def idField : String := "_id"

/-- What a document or a bag of bindings can be made from. -/
inductive Source where
  /-- JSON text -/
  | text (source : String)
  | json (tree : Json)
  | value (value : Value)
  /-- Members without an order of their own; they are taken in the order of their names. -/
  | unordered (members : List (String × Value))
  /-- Members in order -/
  | members (members : List (String × Value))
  /-- The tree of a record of the caller's -/
  | record (tree : Json)

namespace Source

def notAnObject (what : String) (value : Value) : DocError :=
  .bind s!"{what} must be a JSON object, got {value.typeName}"

/-- The members of an object; `what` names it in the error. -/
def objectMembers (what : String) : Value → Except DocError Document
  | .obj ms => .ok ms
  | other => .error (notAnObject what other)

def invalidText : DocError := .json "invalid JSON text"

def sortByName (members : Document) : Document :=
  members.mergeSort fun a b => (compare a.1 b.1).isLE

/-- The members that a source gives; `what` names it in the error. -/
def read (what : String) : Source → Except DocError Document
  | .text t =>
    match Json.parse? t with
    | some tree => objectMembers what (Value.ofJson tree)
    | none => .error invalidText
  | .json tree => objectMembers what (Value.ofJson tree)
  | .value v => objectMembers what v
  | .unordered ms => .ok (sortByName ms)
  | .members ms => .ok ms
  | .record tree => objectMembers "Record" (Value.ofJson tree)

def toDocument (source : Source) : Except DocError Document := source.read "Document"

end Source

end DocStore
