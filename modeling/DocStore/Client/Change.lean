import DocStore.Client.Statement

/-!
# Changing and removing documents

The calls of a statement that modifies documents, each of which adds operations, and the requests of
statements that modify and remove.
-/

namespace DocStore.Statement

/-- Add operations at the end. -/
def queue (s : Statement .modify) (more : List Operation) : Statement .modify :=
  { s with operations := s.operations ++ more }

/-- Write a value at a path, making the place if it is missing. -/
def setValue (s : Statement .modify) (path : String) (value : Value) :
    Except DocError (Statement .modify) := do
  return s.queue [.set (← readText (Path.parse path)) (.literal value)]

/-- Write the value of an expression at a path. -/
def setExpr (s : Statement .modify) (path value : String) : Except DocError (Statement .modify) := do
  let place ← readText (Path.parse path)
  return s.queue [.set place (← readText (Expr.parse value))]

/-- Write a value at a path if the place is there. -/
def change (s : Statement .modify) (path : String) (value : Value) :
    Except DocError (Statement .modify) := do
  return s.queue [.change (← readText (Path.parse path)) (.literal value)]

/-- Remove what is at each path; blank texts are passed over. -/
def unset (s : Statement .modify) (paths : List String) : Except DocError (Statement .modify) := do
  let named := paths.filter fun path => !(Text.trim path.toList).isEmpty
  return s.queue (← named.mapM fun path => do return .unset (← readText (Path.parse path)))

/-- Merge a document, which must not be empty. -/
def patch (s : Statement .modify) (source : Source) : Except DocError (Statement .modify) := do
  let doc ← source.toDocument
  if doc.isEmpty then throw (missing "document")
  return s.queue [.mergePatch (.obj doc)]

def notAnIndex (path : String) : DocError :=
  .bind s!"Array insert path '{path}' must end in an array index"

def isIndex : Segment → Bool
  | .index _ => true
  | _ => false

/-- Insert before the item that a path ends in. -/
def arrayInsert (s : Statement .modify) (path : String) (value : Value) :
    Except DocError (Statement .modify) := do
  let place ← readText (Path.parse path)
  if !place.segments.getLast?.any isIndex then throw (notAnIndex path)
  return s.queue [.arrayInsert place (.literal value)]

/-- Append to the array at a path. -/
def arrayAppend (s : Statement .modify) (path : String) (value : Value) :
    Except DocError (Statement .modify) := do
  return s.queue [.arrayAppend (← readText (Path.parse path)) (.literal value)]

/-- Put a document in the place of each that matches, which keeps its identifier. -/
def replaceWith (s : Statement .modify) (doc : Document) : Statement .modify :=
  s.queue [.set ⟨[]⟩ (.literal (.obj doc))]

/-! ### Requests -/

/-- The request of a statement that modifies. -/
def modifyRequest (s : Statement .modify) : Request × Statement .modify :=
  let (o, compiled) := s.boundOptions
  (.update s.collection.target o (s.bindings.applyOperations s.operations), compiled)

/-- The request of a statement that removes. -/
def removeRequest (s : Statement .remove) : Request × Statement .remove :=
  let (o, compiled) := s.boundOptions
  (.delete s.collection.target o, compiled)

variable {σ : Type}

/-- Modify the documents; the answer is how many have changed. -/
def modify (s : Statement .modify) : Client σ UInt64 := do
  Client.ofExcept ((← Client.send s.modifyRequest.1).affectedBy "update")

/-- Remove the documents; the answer is how many. -/
def remove (s : Statement .remove) : Client σ UInt64 := do
  Client.ofExcept ((← Client.send s.removeRequest.1).affectedBy "delete")

end DocStore.Statement
