import DocStore.Client.Add
import DocStore.Proofs.Client.Running

/-!
# Statements that share a source of identifiers

Any number of statements that add documents, with sessions that share one source of identifiers.
`Adding.run` is what becomes of them by calls in any order.  The clock shows any times whenever it is
looked at, and each execution has a connection and a server of its own.

`Adding.queued` says of a history alone which documents a statement has been given, and `fill` what
identifiers make of them.
-/

namespace DocStore

/-! ## Documents and identifiers -/

/-- The document has no identifier. -/
def lacksId (doc : Document) : Bool := !Assoc.contains doc idField

/-- Give identifiers, in turn, to the documents that have none, as their first members.  When the
identifiers run out, the rest of the documents stay as they are. -/
def fill : List String → List Document → List Document
  | [], docs => docs
  | _ :: _, [] => []
  | id :: ids, doc :: rest =>
    if lacksId doc then ((idField, .str id) :: doc) :: fill ids rest
    else doc :: fill (id :: ids) rest

/-! ## Calls -/

/-- A call on a statement that adds documents. -/
inductive AddCall (σ : Type) where
  | add (source : Source)
  | replacing
  | request (clock : Clock)
  | execute (clock : Clock) (connection : Connection σ) (server : σ)

namespace AddCall

variable {σ : Type}

/-- The document that a call gives to the statement, if there is one. -/
def documents : AddCall σ → List Document
  | .add source => source.toDocument.toOption.toList
  | _ => []

/-- The clock by which a call makes identifiers, if it asks for the request. -/
def clock? : AddCall σ → Option Clock
  | .request clock | .execute clock _ _ => some clock
  | _ => none

end AddCall

namespace AddStatement

variable {σ : Type}

/-- The statement and the source of identifiers after a call. -/
def perform (s : AddStatement) (ids : Identity) : AddCall σ → AddStatement × Identity
  | .add source => ((s.add source).toOption.getD s, ids)
  | .replacing => (s.replacing, ids)
  | .request clock =>
    let ((_, next), after) := s.toRequest clock ids
    (next, after)
  | .execute clock connection server =>
    match s.execute.run connection ⟨server, ids, clock⟩ with
    | (.ok (_, next), after) => (next, after.ids)
    | (.error _, after) => (s, after.ids)

end AddStatement

/-- Statements that add documents, and the source of identifiers that their sessions share. -/
structure Adding where
  statements : List AddStatement
  ids : Identity

namespace Adding

variable {σ : Type}

/-- A statement for each of some collections, none of them with a document yet. -/
def start (collections : List Collection) (ids : Identity) : Adding :=
  ⟨collections.map .ofCollection, ids⟩

/-- A call on the statement at a place. -/
def step (a : Adding) (i : Nat) (call : AddCall σ) : Adding :=
  match a.statements[i]? with
  | none => a
  | some s =>
    let (next, ids) := s.perform a.ids call
    ⟨a.statements.set i next, ids⟩

/-- Calls, each on the statement at some place. -/
def run (a : Adding) (history : List (Nat × AddCall σ)) : Adding :=
  history.foldl (fun a event => a.step event.1 event.2) a

/-- The identifiers that all statements have made. -/
def generated (a : Adding) : List String := a.statements.flatMap (·.generatedIds)

/-- The documents that a history gives to the statement at a place. -/
def queued (i : Nat) (history : List (Nat × AddCall σ)) : List Document :=
  history.flatMap fun event => if event.1 = i then event.2.documents else []

/-- The statement at a place would now send some documents to a collection, and would have made some
identifiers by then.  Its request is what execution sends, unless there are no documents. -/
def Sends (a : Adding) (i : Nat) (clock : Clock) (collection : Collection)
    (documents : List Document) (ids : List String) : Prop :=
  ∃ s, a.statements[i]? = some s ∧
    (s.toRequest clock a.ids).1.1 = .insert collection.target (documents.map .obj) s.upsert ∧
    (s.toRequest clock a.ids).1.2.generatedIds = ids ∧
    (s.documents ≠ [] → ∀ (τ : Type) (connection : Connection τ) (server : τ),
      (s.execute.run connection ⟨server, a.ids, clock⟩).2.server
        = (connection.send (s.toRequest clock a.ids).1.1 server).2)

end Adding

end DocStore
