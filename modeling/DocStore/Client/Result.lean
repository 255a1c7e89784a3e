import DocStore.Request

/-!
# Results of statements

What a statement's response tells its caller.  A response of another kind than the request asks for
is an error of the connection.
-/

namespace DocStore

/-- The documents of a read that have not been fetched yet, in the order of the server. -/
structure DocResult where
  documents : List Document
  deriving Inhabited

namespace DocResult

def notADocument (value : Value) : DocError :=
  .network s!"Expected a document in the result set, got {value.typeName}"

def document : Value → Except DocError Document
  | .obj members => .ok members
  | other => .error (notADocument other)

def ofResponse : Response → Except DocError DocResult
  | .documents values => (values.mapM document).map DocResult.mk
  | other => .error (other.unexpected "find")

/-- Take the next document, if there is one. -/
def fetchOne (result : DocResult) : Option Document × DocResult :=
  (result.documents.head?, ⟨result.documents.tail⟩)

/-- Take all documents. -/
def fetchAll (result : DocResult) : List Document × DocResult := (result.documents, ⟨[]⟩)

/-- The number of documents left. -/
def size (result : DocResult) : Nat := result.documents.length

/-- One field of every document left, null where it is missing. -/
def column (result : DocResult) (key : String) : List Value :=
  result.documents.map fun doc => Value.ofOption (Assoc.get? doc key)

end DocResult

/-- What has become of the documents of an insertion. -/
structure AddResult where
  affected : UInt64
  /-- The identifiers made for documents that came without one, in order. -/
  generatedIds : List String
  deriving Inhabited

namespace Response

/-- The number of documents that a request has changed. -/
def affectedBy (request : String) : Response → Except DocError UInt64
  | .affected items => .ok items
  | other => .error (other.unexpected request)

/-- The size of a collection. -/
def countOf : Response → Except DocError UInt64
  | .count n => .ok n
  | other => .error (other.unexpected "count")

end Response

end DocStore
