import DocStore.Client.Basic
import DocStore.Client.Result
import DocStore.Value.Document

/-!
# Adding documents

A statement that adds documents gives an identifier to each that has none, when it is sent for the
first time.  The document keeps it from then on, so a statement that is sent again repeats its
identifiers.
-/

namespace DocStore

structure AddStatement where
  collection : Collection
  documents : List Document
  /-- The identifiers made so far, in the order of their documents. -/
  generatedIds : List String
  /-- Whether documents replace those that have their identifiers. -/
  upsert : Bool
  deriving Inhabited

namespace AddStatement

def ofCollection (collection : Collection) : AddStatement := ⟨collection, [], [], false⟩

/-- Queue another document. -/
def add (s : AddStatement) (source : Source) : Except DocError AddStatement := do
  return { s with documents := s.documents ++ [← source.toDocument] }

def replacing (s : AddStatement) : AddStatement := { s with upsert := true }

/-- Give an identifier to each document that has none, as its first member; the answer holds the
identifiers made. -/
def assign (clock : Clock) : List Document → Identity → (List Document × List String) × Identity
  | [], ids => (([], []), ids)
  | doc :: rest, ids =>
    if Assoc.contains doc idField then
      let ((docs, made), after) := assign clock rest ids
      ((doc :: docs, made), after)
    else
      let (id, advanced) := ids.next (clock 0)
      let ((docs, made), after) := assign clock.tail rest advanced
      ((Assoc.insertAt doc 0 idField (.str id) :: docs, id :: made), after)

/-- The statement with an identifier in every document. -/
def assignIds (s : AddStatement) (clock : Clock) (ids : Identity) : AddStatement × Identity :=
  let ((documents, made), after) := assign clock s.documents ids
  ({ s with documents, generatedIds := s.generatedIds ++ made }, after)

/-- The request of a statement whose documents have their identifiers. -/
def request (s : AddStatement) : Request :=
  .insert s.collection.target (s.documents.map .obj) s.upsert

/-- The request of a statement, and the statement with the identifiers it has got by that. -/
def toRequest (s : AddStatement) (clock : Clock) (ids : Identity) :
    (Request × AddStatement) × Identity :=
  let (assigned, after) := s.assignIds clock ids
  ((assigned.request, assigned), after)

variable {σ : Type}

/-- Add the documents, if there are any.  The statement keeps its identifiers even if the server
refuses the documents. -/
def execute (s : AddStatement) : Client σ (Except DocError AddResult × AddStatement) := do
  if s.documents.isEmpty then return (.ok ⟨0, []⟩, s)
  let (request, assigned) ← Client.withIds s.toRequest
  let outcome ← Client.attempt do
    let affected ← Client.ofExcept ((← Client.send request).affectedBy "insert")
    return ⟨affected, assigned.generatedIds⟩
  return (outcome, assigned)

end AddStatement

end DocStore
