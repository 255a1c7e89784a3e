import DocStore.Binding
import DocStore.Client.Basic
import DocStore.Client.Result
import DocStore.Expr.Parser
import DocStore.Text.Blank

/-!
# Statements

A statement is put together call by call: a call sets one thing and takes the place of an earlier one
that set it, and a call that fails sets nothing.  The statement can be sent any number of times.  Its
options are compiled when it is sent and kept until a call changes them; placeholders are bound anew
each time, so binding never reads a text again.

Reads, changes and removals are built from the same calls, and each has some of its own.
-/

namespace DocStore

/-- What a statement is for. -/
inductive Purpose where
  | find | modify | remove
  deriving DecidableEq, Repr, Inhabited

structure Statement (purpose : Purpose) where
  collection : Collection
  options : Options
  /-- The options as they were compiled, until one of them is set again. -/
  compiled : Option Options
  bindings : Bindings
  /-- Whether limit and offset have been set by one call. -/
  pairedWindow : Bool
  /-- The changes of a statement that modifies, in order. -/
  operations : List Operation
  deriving Inhabited

namespace Statement

variable {purpose : Purpose}

/-- A statement about the documents of a collection that a filter lets through. -/
def ofFilter (collection : Collection) (filter : Option Expr) : Statement purpose :=
  ⟨collection, { filter }, none, {}, false, []⟩

/-! ### Arguments -/

/-- Read a text; an error in it is an error of the statement. -/
def readText {α : Type} (outcome : Except ParseError α) : Except DocError α :=
  outcome.mapError .parse

/-- Read each of some texts and put the lists they give together. -/
def readAll {α : Type} (parse : String → Except ParseError (List α)) (clauses : List String) :
    Except DocError (List α) := do
  return (← clauses.mapM fun clause => readText (parse clause)).flatten

def missing (parameter : String) : DocError :=
  .bind s!"Parameter '{parameter}' cannot be null or empty"

/-- A text that must not be blank. -/
def requireText (parameter text : String) : Except DocError String :=
  if (Text.trim text.toList).isEmpty then .error (missing parameter) else .ok text

/-- A number of rows, at least one. -/
def requireRows (rows : Int64) : Except DocError UInt64 :=
  if rows.toInt ≤ 0 then
    .error (.range s!"Parameter 'rows' must be greater than zero, got {rows.toInt}")
  else .ok (UInt64.ofNat rows.toInt.toNat)

/-! ### Calls -/

/-- Set options; they have to be compiled again. -/
def set (s : Statement purpose) (f : Options → Options) : Statement purpose :=
  { s with options := f s.options, compiled := none }

/-- Sort by the keys of some sort lists. -/
def sort (s : Statement purpose) (clauses : List String) : Except DocError (Statement purpose) := do
  let keys ← readAll SortKey.parseList clauses
  return s.set fun o => { o with sort := keys }

def limit (s : Statement purpose) (rows : Int64) : Except DocError (Statement purpose) := do
  let n ← requireRows rows
  return s.set fun o => { o with limit := some n }

def pairedOffset : DocError :=
  .incompatible "Offset cannot be combined with the legacy limit and offset call"

/-- Leave out the first results; any number is taken as it is. -/
def offset (s : Statement purpose) (rows : Int64) : Except DocError (Statement purpose) :=
  if s.pairedWindow then .error pairedOffset
  else .ok (s.set fun o => { o with offset := some rows })

/-- Set limit and offset by one call, after which the offset cannot be set alone. -/
def limitOffset (s : Statement purpose) (rows first : Int64) :
    Except DocError (Statement purpose) := do
  let n ← requireRows rows
  return { s.set fun o => { o with limit := some n, offset := some first } with
    pairedWindow := true }

def bind (s : Statement purpose) (name : String) (value : Value) : Statement purpose :=
  { s with bindings := s.bindings.set name value }

/-- Bind all that a property bag holds. -/
def bindAll (s : Statement purpose) (bag : Source) : Except DocError (Statement purpose) := do
  return { s with bindings := s.bindings.extend (← Bindings.ofSource bag) }

/-! ### Compiling -/

/-- The options as they are sent, but for the placeholders. -/
def compile (s : Statement purpose) : Options × Statement purpose :=
  match s.compiled with
  | some o => (o, s)
  | none => (s.options, { s with compiled := some s.options })

/-- The options with the placeholders that have values bound. -/
def boundOptions (s : Statement purpose) : Options × Statement purpose :=
  let (o, compiled) := s.compile
  (s.bindings.applyOptions o, compiled)

end Statement

end DocStore
