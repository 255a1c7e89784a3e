import DocStore.Query.Window
import DocStore.Expr.Printer

/-!
# Groups of rows

Rows with the same values of the grouping expressions form a group; groups come in the order of their
first rows.  A grouping expression may name a column by its alias.
-/

namespace DocStore.Query

def invalidGrouping : DocError :=
  .server ServerCode.invalidGrouping "Invalid expression in grouping criteria"

def unknownColumn (name : String) : DocError :=
  .server ServerCode.unknownColumn s!"Unknown column '{name}' in 'group statement'"

/-- The name that a path has as its only segment. -/
def soleMember? (path : Path) : Option String :=
  match path.segments with
  | [.member name] => some name
  | _ => none

/-- The column of an alias. -/
def columnOf? (columns : List Column) (name : String) : Option Column :=
  columns.find? fun column => column.shownAs == some name

/-- A grouping expression, with an alias replaced by what it stands for. -/
def resolveAlias (columns : List Column) (e : Expr) : Expr :=
  match e with
  | .field path =>
    match (soleMember? path).bind (columnOf? columns) with
    | some column => column.source
    | none => e
  | _ => e

/-- The name of a column as errors show it. -/
def columnName (path : Path) : String :=
  match path.text.toList with
  | '$' :: '.' :: name => String.ofList name
  | text => String.ofList text

/-- A field to group by must occur in some document of the collection. -/
def checkColumn (stored : List Document) : Expr → Except DocError Unit
  | .field path =>
    if stored.any fun doc => !(path.resolve (.obj doc)).isEmpty then .ok ()
    else .error (unknownColumn (columnName path))
  | _ => .ok ()

/-- Whether a field is a grouping field or an alias. -/
def isGroupedField (groupBy : List Expr) (columns : List Column) (path : Path) : Bool :=
  ((soleMember? path).bind (columnOf? columns)).isSome
    || groupBy.any fun
      | .field grouped => grouped == path
      | _ => false

/-- Whether a condition on groups reads grouping fields and aliases only, except in aggregates. -/
def isGrouped (groupBy : List Expr) (columns : List Column) (having : Expr) : Bool :=
  having.every fun
    | .call name _ => if name.isAggregate then some true else none
    | .field path => some (isGroupedField groupBy columns path)
    | _ => none

/-- The text that ends each value in a group's key. -/
def keyEnd : String := String.ofList [Char.ofNat 0x1F]

/-- The key of the group that a row belongs to. -/
def groupKey (groupBy : List Expr) (row : Value) : Except DocError String := do
  let values ← groupBy.mapM fun e => e.eval (.row row)
  return String.join (values.map fun v => v.text ++ keyEnd)

/-- Add a row to the group of its key, at the end. -/
def addToGroup (groups : List (String × List Value)) (key : String) (row : Value) :
    List (String × List Value) :=
  Assoc.insert groups key ((Assoc.get? groups key).getD [] ++ [row])

/-- The groups of rows; all rows are one group if there is nothing to group by. -/
def groupRows (groupBy : List Expr) (rows : List Value) : Except DocError (List (List Value)) :=
  if groupBy.isEmpty then .ok [rows]
  else do
    let keyed ← rows.mapM fun row => do return (← groupKey groupBy row, row)
    let groups := keyed.foldl (fun groups entry => addToGroup groups entry.1 entry.2) []
    return groups.map Prod.snd

end DocStore.Query
