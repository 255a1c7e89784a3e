import DocStore.Eval
import DocStore.Request
import DocStore.Value.Document

/-!
# Changing documents

The operations of an update are applied to a document one after the other, each seeing what those
before it left.  Operations that find no place for their value leave the document as it is.  The
identifier of a document cannot be written.
-/

namespace DocStore

namespace Value

/-! ### Places along a path

These follow a path strictly: a member step needs an object that has the member, an index step an
array that has the item, and wildcards lead nowhere. -/

/-- The value at one step. -/
def child? (segment : Segment) (value : Value) : Option Value :=
  match segment, value with
  | .member name, .obj members => Assoc.get? members name
  | .index n, .arr items => items[n.toNat]?
  | _, _ => none

/-- Replace the value at one step, if it is there. -/
def setChild (segment : Segment) (new value : Value) : Value :=
  match segment, value with
  | .member name, .obj members => .obj (Assoc.modify members name fun _ => new)
  | .index n, .arr items => .arr (items.set n.toNat new)
  | _, v => v

/-- The value at the end of a path. -/
def lookup? : List Segment → Value → Option Value
  | [], v => some v
  | segment :: rest, v => (child? segment v).bind (lookup? rest)

/-- Replace the value at the end of a path by its image, if it is there. -/
def modifyAt (f : Value → Value) : List Segment → Value → Value
  | [], v => f v
  | segment :: rest, v =>
    match child? segment v with
    | some inner => setChild segment (modifyAt f rest inner) v
    | none => v

/-! ### Writing, removing and inserting -/

/-- Write at the last step of a path.  With `create`, a missing member is added, and an index beyond
the end appends. -/
def writeLast (create : Bool) (new : Value) (segment : Segment) (value : Value) : Value :=
  match segment, value with
  | .member name, .obj members =>
    if create || Assoc.contains members name then .obj (Assoc.insert members name new)
    else .obj members
  | .index n, .arr items =>
    if n.toNat < items.length then .arr (items.set n.toNat new)
    else if create then .arr (items ++ [new])
    else .arr items
  | _, v => v

/-- The value at a step on the way to the last one.  With `create`, a missing member is an empty
object. -/
def descend? (create : Bool) (segment : Segment) (value : Value) : Option Value :=
  match segment, value with
  | .member _, .obj _ => (child? segment value).or (if create then some (.obj []) else none)
  | _, _ => child? segment value

/-- Write a value at a path; nothing is written through a path without steps.  With `create`, the
objects on the way are made. -/
def write (create : Bool) (new : Value) : List Segment → Value → Value
  | [], v => v
  | [segment], v => writeLast create new segment v
  | segment :: rest, v =>
    match descend? create segment v with
    | some inner => writeLast true (write create new rest inner) segment v
    | none => v

/-- Take away the member or item at one step. -/
def removeChild (segment : Segment) (value : Value) : Value :=
  match segment, value with
  | .member name, .obj members => .obj (Assoc.erase members name)
  | .index n, .arr items => .arr (items.eraseIdx n.toNat)
  | _, v => v

/-- Do something at the last step of a path. -/
def atLast (f : Segment → Value → Value) (segments : List Segment) (value : Value) : Value :=
  match segments.getLast? with
  | some last => modifyAt (f last) segments.dropLast value
  | none => value

/-- Insert into an array before the item of an index, or at the end. -/
def insertItem (new : Value) (segment : Segment) (value : Value) : Value :=
  match segment, value with
  | .index n, .arr items => .arr (items.take n.toNat ++ new :: items.drop n.toNat)
  | _, v => v

/-- Append to an array; any other value becomes the first item of one. -/
def appendItem (new : Value) : Value → Value
  | .arr items => .arr (items ++ [new])
  | other => .arr [other, new]

/-! ### Merging -/

mutual

/-- Merge a patch into a value: an object's members are merged one by one, null takes a member away,
and anything else takes the value's place. -/
def mergePatch (target : Value) : Value → Value
  | .obj fields =>
    .obj (mergeFields (match target with | .obj members => members | _ => []) fields)
  | other => other

def mergeFields (members : Document) : List (String × Value) → Document
  | [] => members
  | (key, value) :: rest =>
    let merged :=
      if value.isNull then Assoc.erase members key
      else Assoc.insert members key (mergePatch ((Assoc.get? members key).getD .null) value)
    mergeFields merged rest

end

end Value

namespace Update

def invalid (text : String) : DocError := .server ServerCode.invalidUpdate text

def noOperations : DocError := invalid "Invalid update expression list"

def forbiddenId : DocError :=
  .server ServerCode.forbiddenIdUpdate "Forbidden update operation on '$._id' member"

/-- The steps of a path that may be written through: none of them a wildcard, and not those of the
identifier. -/
def writable (path : Path) : Except DocError (List Segment) :=
  if path.segments.head? = some (.member idField) then .error forbiddenId
  else if path.isExact then .ok path.segments
  else .error (invalid "Update paths may not contain wildcards")

/-- A whole document in the place of another, whose identifier it takes over. -/
def replacement (root : Value) : Value → Except DocError Value
  | .obj members =>
    let others := Assoc.erase members idField
    .ok (.obj (match root.get? idField with
      | some id => Assoc.insertAt others 0 idField id
      | none => others))
  | _ => .error (invalid "Replacement must be a JSON object")

/-- A patch without the identifier. -/
def patchWithoutId : Value → Value
  | .obj fields => .obj (Assoc.erase fields idField)
  | other => other

/-- The value after one operation. -/
def applyOne (root : Value) : Operation → Except DocError Value
  | .set path value => do
    let v ← value.eval (.row root)
    if path.isRoot then replacement root v
    else return Value.write true v (← writable path) root
  | .change path value => do
    let v ← value.eval (.row root)
    return Value.write false v (← writable path) root
  | .unset path => do return root.atLast Value.removeChild (← writable path)
  | .mergePatch patch => return root.mergePatch (patchWithoutId patch)
  | .arrayInsert path value => do
    let v ← value.eval (.row root)
    return root.atLast (Value.insertItem v) (← writable path)
  | .arrayAppend path value => do
    let v ← value.eval (.row root)
    return root.modifyAt (Value.appendItem v) (← writable path)

/-- The document after all operations.  One that would no longer be an object stays what it was. -/
def apply (operations : List Operation) (doc : Document) : Except DocError Document := do
  if operations.isEmpty then throw noOperations
  match ← operations.foldlM applyOne (.obj doc) with
  | .obj updated => return updated
  | _ => return doc

end Update

end DocStore
