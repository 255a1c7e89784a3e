import DocStore.Client.Change
import DocStore.Client.Find

/-!
# Calls of a statement

The calls on a statement that reads, modifies or removes, in any order and any number of them.
`Statement.perform` is one call on a statement and `Statement.performAll` a sequence of them.

Beside the statement stands its plain record: the list of what the successful calls have set, in
order (`settled`).  The record keeps nothing compiled.  What it would send is worked out from the
list each time (`Settings.request?`): for each option the last setting counts, operations are put one
after the other, and a placeholder gets the value bound last to its name.
-/

namespace DocStore

/-- A call on a statement. -/
inductive Call : Purpose → Type
  | sort {purpose : Purpose} (clauses : List String) : Call purpose
  | limit {purpose : Purpose} (rows : Int64) : Call purpose
  | offset {purpose : Purpose} (rows : Int64) : Call purpose
  /-- Statements that read have no such call. -/
  | limitOffset {purpose : Purpose} (writes : purpose ≠ .find) (rows first : Int64) : Call purpose
  | fields (clauses : List String) : Call .find
  | groupBy (entries : List (Option String)) : Call .find
  | having (condition : String) : Call .find
  | lock (mode : LockMode) (contention : LockContention) : Call .find
  | setValue (path : String) (value : Value) : Call .modify
  | setExpr (path value : String) : Call .modify
  | change (path : String) (value : Value) : Call .modify
  | unset (paths : List String) : Call .modify
  | patch (source : Source) : Call .modify
  | arrayInsert (path : String) (value : Value) : Call .modify
  | arrayAppend (path : String) (value : Value) : Call .modify
  | bind {purpose : Purpose} (name : String) (value : Value) : Call purpose
  | bindAll {purpose : Purpose} (bag : Source) : Call purpose
  | request {purpose : Purpose} : Call purpose

/-- What a call answers: a request, if it asks for one. -/
abbrev Answer := Except DocError (Option Request)

/-! ## On the statement -/

namespace Statement

variable {purpose : Purpose}

/-- The request of a statement. -/
def request : {purpose : Purpose} → Statement purpose → Except DocError Request × Statement purpose
  | .find, s => s.findRequest
  | .modify, s => (.ok s.modifyRequest.1, s.modifyRequest.2)
  | .remove, s => (.ok s.removeRequest.1, s.removeRequest.2)

/-- A call that fails leaves the statement as it is. -/
def settle (s : Statement purpose) :
    Except DocError (Statement purpose) → Answer × Statement purpose
  | .ok next => (.ok none, next)
  | .error e => (.error e, s)

/-- What a call answers and makes of the statement. -/
def perform : {purpose : Purpose} → Statement purpose → Call purpose → Answer × Statement purpose
  | _, s, .sort clauses => s.settle (s.sort clauses)
  | _, s, .limit rows => s.settle (s.limit rows)
  | _, s, .offset rows => s.settle (s.offset rows)
  | _, s, .limitOffset _ rows first => s.settle (s.limitOffset rows first)
  | _, s, .fields clauses => s.settle (s.fields clauses)
  | _, s, .groupBy entries => s.settle (s.groupBy entries)
  | _, s, .having condition => s.settle (s.having condition)
  | _, s, .lock mode contention => s.settle (.ok (s.lock mode contention))
  | _, s, .setValue path value => s.settle (s.setValue path value)
  | _, s, .setExpr path value => s.settle (s.setExpr path value)
  | _, s, .change path value => s.settle (s.change path value)
  | _, s, .unset paths => s.settle (s.unset paths)
  | _, s, .patch source => s.settle (s.patch source)
  | _, s, .arrayInsert path value => s.settle (s.arrayInsert path value)
  | _, s, .arrayAppend path value => s.settle (s.arrayAppend path value)
  | _, s, .bind name value => s.settle (.ok (s.bind name value))
  | _, s, .bindAll bag => s.settle (s.bindAll bag)
  | _, s, .request => (s.request.1.map some, s.request.2)

/-- The statement after some calls. -/
def performAll (s : Statement purpose) (calls : List (Call purpose)) : Statement purpose :=
  calls.foldl (fun s call => (s.perform call).2) s

end Statement

/-! ## On the plain record -/

/-- What a successful call sets. -/
inductive Setting where
  | sort (keys : List SortKey)
  | limit (rows : UInt64)
  | offset (rows : Int64)
  /-- Limit and offset by one call -/
  | window (rows : UInt64) (first : Int64)
  | columns (shown : List Column)
  | groupBy (keys : List Expr)
  | having (condition : Expr)
  | lock (mode : LockMode) (contention : LockContention)
  | operations (more : List Operation)
  /-- Values by normalised name -/
  | values (bound : List (String × Value))
  | nothing

namespace Setting

def sort? : Setting → Option (List SortKey)
  | .sort keys => some keys
  | _ => none

def limit? : Setting → Option UInt64
  | .limit rows | .window rows _ => some rows
  | _ => none

def offset? : Setting → Option Int64
  | .offset rows | .window _ rows => some rows
  | _ => none

def isWindow : Setting → Bool
  | .window .. => true
  | _ => false

def columns? : Setting → Option (List Column)
  | .columns shown => some shown
  | _ => none

def groupBy? : Setting → Option (List Expr)
  | .groupBy keys => some keys
  | _ => none

def having? : Setting → Option Expr
  | .having condition => some condition
  | _ => none

def lock? : Setting → Option (LockMode × LockContention)
  | .lock mode contention => some (mode, contention)
  | _ => none

def added : Setting → List Operation
  | .operations more => more
  | _ => []

def bound : Setting → List (String × Value)
  | .values bound => bound
  | _ => []

end Setting

/-- All that the successful calls on a statement have set, in order. -/
abbrev Settings := List Setting

open Statement

/-- What a call sets after the settings before it, or how it fails. -/
def Call.setting (settings : Settings) : {purpose : Purpose} → Call purpose →
    Except DocError Setting
  | _, .sort clauses => do return .sort (← readAll SortKey.parseList clauses)
  | _, .limit rows => do return .limit (← requireRows rows)
  | _, .offset rows =>
    if settings.any Setting.isWindow then .error pairedOffset else .ok (.offset rows)
  | _, .limitOffset _ rows first => do return .window (← requireRows rows) first
  | _, .fields clauses => do return .columns (← readAll Column.parseList clauses)
  | _, .groupBy entries =>
    if entries.all Option.isNone then .ok .nothing
    else do return .groupBy (← readAll Expr.parseList (entries.filterMap id))
  | _, .having condition => do return .having (← readText (Expr.parse condition))
  | _, .lock mode contention => .ok (.lock mode contention)
  | _, .setValue path value => do
    return .operations [.set (← readText (Path.parse path)) (.literal value)]
  | _, .setExpr path value => do
    let place ← readText (Path.parse path)
    return .operations [.set place (← readText (Expr.parse value))]
  | _, .change path value => do
    return .operations [.change (← readText (Path.parse path)) (.literal value)]
  | _, .unset paths => do
    let named := paths.filter fun path => !(Text.trim path.toList).isEmpty
    return .operations (← named.mapM fun path => do return .unset (← readText (Path.parse path)))
  | _, .patch source => do
    let doc ← source.toDocument
    if doc.isEmpty then throw (missing "document")
    return .operations [.mergePatch (.obj doc)]
  | _, .arrayInsert path value => do
    let place ← readText (Path.parse path)
    if !place.segments.getLast?.any isIndex then throw (notAnIndex path)
    return .operations [.arrayInsert place (.literal value)]
  | _, .arrayAppend path value => do
    return .operations [.arrayAppend (← readText (Path.parse path)) (.literal value)]
  | _, .bind name value => .ok (.values [(Bindings.normalize name, value)])
  | _, .bindAll bag => do
    let members ← bag.read "Binding bag"
    return .values (members.map fun member => (Bindings.normalize member.1, member.2))
  | _, .request => .ok .nothing

/-- The settings after a call; one that fails adds none. -/
def Call.extend {purpose : Purpose} (settings : Settings) (call : Call purpose) :
    Settings :=
  settings ++ (call.setting settings).toOption.toList

/-- The settings of the successful ones among some calls, in order. -/
def settled {purpose : Purpose} (calls : List (Call purpose)) : Settings :=
  calls.foldl Call.extend []

namespace Settings

/-- The value of the last setting that has one. -/
def last? {α : Type} (value? : Setting → Option α) (settings : Settings) : Option α :=
  settings.reverse.findSome? value?

/-- The options of a statement with a filter. -/
def options (filter : Option Expr) (settings : Settings) : Options where
  filter := filter
  sort := (last? Setting.sort? settings).getD []
  groupBy := (last? Setting.groupBy? settings).getD []
  having := last? Setting.having? settings
  limit := last? Setting.limit? settings
  offset := last? Setting.offset? settings
  columns := (last? Setting.columns? settings).getD []
  lockMode := ((last? Setting.lock? settings).map Prod.fst).getD .none
  lockContention := ((last? Setting.lock? settings).map Prod.snd).getD .default

def operations (settings : Settings) : List Operation := settings.flatMap Setting.added

/-- The value bound last to a normalised name. -/
def value? (settings : Settings) (name : String) : Option Value :=
  Assoc.get? (settings.flatMap Setting.bound).reverse name

/-- The literal for a placeholder that a value has been bound to, and any other node itself. -/
def substitute (settings : Settings) : Expr → Expr
  | .placeholder name position =>
    match value? settings name with
    | some value => .literal value
    | none => .placeholder name position
  | other => other

/-- The request of a statement. -/
def request? (purpose : Purpose) (collection : Collection) (filter : Option Expr)
    (settings : Settings) : Except DocError Request :=
  let bound := (options filter settings).mapExprs (substitute settings)
  match purpose with
  | .find =>
    let limited := { bound with limit := bound.limit.or collection.session.defaultLimit }
    (LockDirective.compile bound.lockMode bound.lockContention collection.session.version).map
      (.find collection.target limited)
  | .modify =>
    .ok (.update collection.target bound
      ((operations settings).map (Operation.mapValue (substitute settings))))
  | .remove => .ok (.delete collection.target bound)

/-- What a call answers. -/
def answer (collection : Collection) (filter : Option Expr) (settings : Settings) :
    {purpose : Purpose} → Call purpose → Answer
  | purpose, .request => (request? purpose collection filter settings).map some
  | _, call => (call.setting settings).map fun _ => none

end Settings

end DocStore
