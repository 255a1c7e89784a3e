import DocStore.Query.Group
import DocStore.Value.Document

/-!
# Reading rows

What happens to the rows that a filter has let through: they are sorted, cut to the window and shown
as columns; or they are grouped first, and groups take the place of rows.  There are groups if a
statement asks for them or a column holds an aggregate.
-/

namespace DocStore.Query

/-- The name under which a column is shown: its alias, the name of a single member, or its text. -/
def columnKey (column : Column) : String :=
  match column.shownAs, column.source with
  | some name, _ => name
  | none, .field path => (soleMember? path).getD path.text
  | none, source => source.text

/-- A row as its columns; without columns the row itself. -/
def project (columns : List Column) (row : Value) : Except DocError Value :=
  if columns.isEmpty then .ok row
  else do
    let members ← columns.mapM fun column => do
      return (columnKey column, ← column.source.eval (.row row))
    return .obj (Assoc.ofList members)

/-- The first row of a group. -/
def firstRow : List Value → Document
  | .obj members :: _ => members
  | _ => []

/-- A group as its columns, each of which sees those before it; without columns its first row. -/
def projectGroup (columns : List Column) (rows : List Value) : Except DocError Document :=
  if columns.isEmpty then .ok (firstRow rows)
  else
    columns.foldlM (fun shown column => do
      let value ← column.source.eval (.group rows (some shown))
      return Assoc.insert shown (columnKey column) value) []

/-- The scope in which the conditions and sort keys of a group are evaluated. -/
def groupScope (group : Document × List Value) : Scope := .group group.2 (some group.1)

/-- A group with its columns, if it meets the condition. -/
def qualify (o : Options) (rows : List Value) : Except DocError (Option (Document × List Value)) := do
  let group := (← projectGroup o.columns rows, rows)
  match o.having with
  | none => return some group
  | some having =>
    return if (← having.eval (groupScope group)).isTruthy then some group else none

/-- Results of rows without groups. -/
def selectRows (o : Options) (rows : List Value) : Except DocError (List Value) := do
  let sorted ← sortBy o.sort Scope.row rows
  (window o.limit o.offset sorted).mapM (project o.columns)

/-- The condition on groups, if there is one, must not read single rows. -/
def checkHaving (o : Options) : Except DocError Unit :=
  match o.having with
  | some having => if isGrouped o.groupBy o.columns having then .ok () else .error invalidGrouping
  | none => .ok ()

/-- Results of groups; `stored` is the whole collection. -/
def selectGroups (o : Options) (stored : List Document) (rows : List Value) :
    Except DocError (List Value) := do
  let groupBy := o.groupBy.map (resolveAlias o.columns)
  groupBy.forM (checkColumn stored)
  checkHaving o
  let groups ← (← groupRows groupBy rows).mapM (qualify o)
  let sorted ← sortBy o.sort groupScope (groups.filterMap id)
  return (window o.limit o.offset sorted).map fun group => .obj group.1

/-- Whether the results are groups. -/
def isAggregated (o : Options) : Bool :=
  !o.groupBy.isEmpty || o.columns.any fun column => column.source.hasAggregate

/-- The results of rows that passed the filter; `stored` is the whole collection. -/
def select (o : Options) (stored : List Document) (rows : List Value) :
    Except DocError (List Value) :=
  if o.having.isSome && o.groupBy.isEmpty then .error invalidGrouping
  else if isAggregated o then selectGroups o stored rows
  else selectRows o rows

end DocStore.Query
