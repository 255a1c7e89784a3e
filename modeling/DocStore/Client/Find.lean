import DocStore.Client.Statement

/-!
# Reading documents

The calls of a statement that reads, and its request.  The request carries the lock that its server
can give; a statement that sets no limit has the session's.
-/

namespace DocStore.Statement

/-- Show each result as the columns of some projections. -/
def fields (s : Statement .find) (clauses : List String) : Except DocError (Statement .find) := do
  let columns ← readAll Column.parseList clauses
  return s.set fun o => { o with columns }

/-- Group the results.  Missing entries are passed over; if nothing is left, nothing is set. -/
def groupBy (s : Statement .find) (entries : List (Option String)) :
    Except DocError (Statement .find) := do
  let groupBy ← readAll Expr.parseList (entries.filterMap id)
  return if groupBy.isEmpty then s else s.set fun o => { o with groupBy }

/-- Keep the groups that meet a condition.  Whether there are groups is left to the server. -/
def having (s : Statement .find) (condition : String) : Except DocError (Statement .find) := do
  let e ← readText (Expr.parse condition)
  return s.set fun o => { o with having := some e }

/-- Lock the rows that match. -/
def lock (s : Statement .find) (lockMode : LockMode) (lockContention : LockContention) :
    Statement .find :=
  s.set fun o => { o with lockMode, lockContention }

/-- The request of a statement that reads. -/
def findRequest (s : Statement .find) : Except DocError Request × Statement .find :=
  let (bound, compiled) := s.boundOptions
  let session := s.collection.session
  let o := { bound with limit := bound.limit.or session.defaultLimit }
  ((LockDirective.compile o.lockMode o.lockContention session.version).map
    (.find s.collection.target o), compiled)

variable {σ : Type}

/-- Read the documents. -/
def fetch (s : Statement .find) : Client σ DocResult := do
  let request ← Client.ofExcept s.findRequest.1
  Client.ofExcept (DocResult.ofResponse (← Client.send request))

/-- Read the documents and take the first one, if there is one. -/
def fetchOne (s : Statement .find) : Client σ (Option Document) := do
  return (← s.fetch).fetchOne.1

end DocStore.Statement
