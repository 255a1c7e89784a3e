import DocStore.Request
import DocStore.Text.Case
import DocStore.Value.Document

/-!
# Bindings

Values for the placeholders of a statement, by name.  Names are the same in any case and with any
number of colons in front.  Binding puts a literal in the place of each placeholder that has a
value; the others stay for the server to report.
-/

namespace DocStore

/-- Values by normalised name, in the order in which the names were first bound. -/
structure Bindings where
  values : List (String × Value) := []
  deriving Inhabited

namespace Bindings

/-- The name under which a value is kept. -/
def normalize (name : String) : String :=
  Text.lower (String.ofList (name.toList.dropWhile (· == ':')))

/-- Bind a name; its last value counts. -/
def set (b : Bindings) (name : String) (value : Value) : Bindings :=
  ⟨Assoc.insert b.values (normalize name) value⟩

def get? (b : Bindings) (name : String) : Option Value := Assoc.get? b.values (normalize name)

/-- Bind all that `more` binds. -/
def extend (b more : Bindings) : Bindings := ⟨Assoc.insertAll b.values more.values⟩

def names (b : Bindings) : List String := Assoc.keys b.values

def ofDocument (members : Document) : Bindings :=
  members.foldl (fun b m => b.set m.1 m.2) {}

/-- The bindings of a property bag. -/
def ofSource (source : Source) : Except DocError Bindings :=
  (source.read "Binding bag").map ofDocument

/-! ### Substitution -/

/-- The literal for a bound placeholder, and any other node itself. -/
def substitute (b : Bindings) : Expr → Expr
  | .placeholder name position =>
    match Assoc.get? b.values name with
    | some value => .literal value
    | none => .placeholder name position
  | other => other

def applyExpr (b : Bindings) (e : Expr) : Expr := e.map b.substitute

def applyOptions (b : Bindings) (o : Options) : Options := o.mapExprs b.substitute

def applyOperations (b : Bindings) (operations : List Operation) : List Operation :=
  operations.map (Operation.mapValue b.substitute)

end Bindings

end DocStore
