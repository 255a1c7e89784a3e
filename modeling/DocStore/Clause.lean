import DocStore.Expr.Printer

/-!
# Clauses of a statement

The parts of a sort list and of a projection, and their canonical texts.
-/

namespace DocStore

inductive SortDirection where
  | asc | desc
  deriving DecidableEq, Repr, Inhabited

/-- One key of a sort list. -/
structure SortKey where
  expr : Expr
  direction : SortDirection
  deriving Inhabited

/-- One column of a projection. -/
structure Column where
  source : Expr
  /-- The name it is shown under, its alias. -/
  shownAs : Option String
  deriving Inhabited

namespace SortDirection

/-- The name of a direction on the wire. -/
def name : SortDirection → String
  | .asc => "asc" | .desc => "desc"

def ofName? : String → Option SortDirection
  | "asc" => some .asc
  | "desc" => some .desc
  | _ => none

/-- The keyword of a direction. -/
def keyword : SortDirection → String
  | .asc => "ASC" | .desc => "DESC"

end SortDirection

/-- The text of a sort key, its direction always written. -/
def SortKey.text (key : SortKey) : String := key.expr.text ++ " " ++ key.direction.keyword

def Column.text (column : Column) : String :=
  match column.shownAs with
  | some name => column.source.text ++ " AS " ++ name
  | none => column.source.text

/-- The text of a list of clauses. -/
def clauseList (texts : List String) : String := ", ".intercalate texts

end DocStore
