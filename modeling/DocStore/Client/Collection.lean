import DocStore.Client.Add
import DocStore.Client.Change
import DocStore.Client.Find
import DocStore.Value.Order

/-!
# Collections

Statements about a collection, and actions on the one document that an identifier names.
-/

namespace DocStore.Collection

/-! ### Statements -/

/-- Read the documents that meet a condition. -/
def find (c : Collection) (condition : String) : Except DocError (Statement .find) := do
  return .ofFilter c (some (← Statement.readText (Expr.parse condition)))

def findAll (c : Collection) : Statement .find := .ofFilter c none

/-- A statement about the documents that meet a condition, which must not be blank. -/
def conditional {purpose : Purpose} (c : Collection) (condition : String) :
    Except DocError (Statement purpose) := do
  let text ← Statement.requireText "condition" condition
  return .ofFilter c (some (← Statement.readText (Expr.parse text)))

def modify (c : Collection) (condition : String) : Except DocError (Statement .modify) :=
  c.conditional condition

def remove (c : Collection) (condition : String) : Except DocError (Statement .remove) :=
  c.conditional condition

/-- Add documents. -/
def add (c : Collection) (sources : List Source) : Except DocError AddStatement :=
  sources.foldlM AddStatement.add (.ofCollection c)

/-! ### Single documents -/

/-- The condition that a document has the identifier bound to `id`. -/
def idFilter : Expr := .binary .eq (.field (.ofMember idField)) (.placeholder "id" 0)

/-- A statement about the document of an identifier. -/
def byId {purpose : Purpose} (c : Collection) (id : Value) : Statement purpose :=
  (Statement.ofFilter c (some idFilter)).bind "id" id

/-- An identifier must be neither null nor a blank text. -/
def requireId : Value → Except DocError Unit
  | .null => .error (Statement.missing "id")
  | .str text => do let _ ← Statement.requireText "id" text
  | _ => .ok ()

def differentId : DocError :=
  .bind "Replacement document has an _id that is different than the matched document."

/-- A document to stand under an identifier: its own identifier, if it has one, must be the same and
is left out. -/
def replacement (id : Value) (source : Source) : Except DocError Document := do
  let doc ← source.toDocument
  match Assoc.get? doc idField with
  | some own => if own.looselyEquals id then return Assoc.erase doc idField else throw differentId
  | none => return doc

variable {σ : Type}

/-- The document of an identifier, if there is one. -/
def getOne (c : Collection) (id : Value) : Client σ (Option Document) := do
  Client.ofExcept (requireId id)
  (c.byId id).fetchOne

/-- Remove the document of an identifier; the answer is how many were removed. -/
def removeOne (c : Collection) (id : Value) : Client σ UInt64 := do
  Client.ofExcept (requireId id)
  (c.byId id).remove

/-- Put a document in the place of the one that has an identifier; the answer is zero if there is
none. -/
def replaceOne (c : Collection) (id : Value) (source : Source) : Client σ UInt64 := do
  Client.ofExcept (requireId id)
  let doc ← Client.ofExcept (replacement id source)
  ((c.byId id).replaceWith doc).modify

/-- Store a document under an identifier, whether it is taken or not. -/
def addOrReplaceOne (c : Collection) (id : Value) (source : Source) : Client σ UInt64 := do
  if !c.session.version.supports Version.upsert then throw (Version.unsupported Version.upsert)
  Client.ofExcept (requireId id)
  let doc ← Client.ofExcept (replacement id source)
  let whole := Assoc.insertAt doc 0 idField id
  let statement ← Client.ofExcept ((AddStatement.ofCollection c).replacing.add (.members whole))
  let (outcome, _) ← statement.execute
  return (← Client.ofExcept outcome).affected

/-- The number of documents. -/
def count (c : Collection) : Client σ UInt64 := do
  Client.ofExcept (← Client.send (.count c.target)).countOf

end DocStore.Collection
