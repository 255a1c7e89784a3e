import DocStore.Error
import DocStore.Eval.Arithmetic
import DocStore.Text.Case

/-!
# Functions

The functions an expression may call: those of a row's values, by name, and the aggregates, which
take all values of a group.
-/

namespace DocStore

namespace Value

/-- The text of a value: a string is its own text, any other value its JSON text. -/
def bareText : Value → String
  | .str s => s
  | other => other.text

/-- A count as a value. -/
def ofCount (n : Nat) : Value := ofUInt64 (UInt64.ofNat n)

end Value

namespace Function

def unknown (name : String) : DocError :=
  .server ServerCode.noSuchFunction s!"FUNCTION {name} does not exist"

def wrongCount (name : String) : DocError :=
  .server ServerCode.parameterCount
    s!"Incorrect parameter count in the call to native function '{name}'"

def starMisplaced : DocError :=
  .server ServerCode.parameterCount "'*' is only valid as the argument of count()"

def notInGroup : DocError :=
  .server ServerCode.invalidGroupFunction "Invalid use of group function"

/-- The text of the first argument under a mapping; null if there is none. -/
def onText (f : String → Value) (first : Value) : Value :=
  if first.isNull then .null else f first.bareText

def jsonLength : Value → Value
  | .null => .null
  | .arr items => .ofCount items.length
  | .obj members => .ofCount members.length
  | _ => .int 1

/-- Call a function by its name in lower case.  Arguments beyond those it takes are ignored, and a
missing one is null. -/
def call (name : String) (args : List Value) : Except DocError Value :=
  let first := args.headD .null
  match name with
  | "concat" =>
    .ok (if args.any Value.isNull then .null else .str (String.join (args.map Value.bareText)))
  | "upper" => .ok (onText (fun s => .str (Text.upper s)) first)
  | "lower" => .ok (onText (fun s => .str (Text.lower s)) first)
  | "length" => .ok (onText (fun s => .ofCount s.utf8ByteSize) first)
  | "char_length" => .ok (onText (fun s => .ofCount s.length) first)
  | "abs" => .ok ((Number.ofValue? first).elim .null Arithmetic.absolute)
  | "coalesce" | "ifnull" => .ok ((args.find? fun v => !v.isNull).getD .null)
  | "json_length" => .ok (jsonLength first)
  | _ => .error (unknown name)

/-! ### Aggregates -/

/-- The sum of integers while it fits. -/
def addTo (total : Option Int64) : Number → Option Int64
  | .int i => total.bind fun t => Arithmetic.fits? (t.toInt + i.toInt)
  | .float _ => none

/-- The sum of what is a number among the values: an integer if all are and no partial sum is too
large, a floating-point number otherwise. -/
def sum (values : List Value) : Value :=
  let numbers := values.filterMap Number.ofValue?
  match numbers.foldl addTo (some 0) with
  | some total => .int total
  | none => .float (numbers.foldl (fun total n => total + n.toFloat) 0.0)

/-- The sum of what is a number among the values, starting from negative zero, by their count. -/
def average (values : List Value) : Value :=
  let numbers := values.filterMap Number.ofValue?
  .float (numbers.foldl (fun total n => total + n.toFloat) (-0.0) / Float.ofNat values.length)

/-- The first of the least values. -/
def least : Value → List Value → Value
  | v, [] => v
  | v, w :: rest => least (if Value.sortCompare v w == .gt then w else v) rest

/-- The last of the greatest values. -/
def greatest : Value → List Value → Value
  | v, [] => v
  | v, w :: rest => greatest (if Value.sortCompare v w == .gt then v else w) rest

/-- The value of an aggregate, by its name in lower case, over the values that are not null. -/
def aggregate (name : String) (values : List Value) : Value :=
  match name, values with
  | "count", _ => .ofCount values.length
  | _, [] => .null
  | "sum", _ => sum values
  | "avg", _ => average values
  | "min", v :: rest => least v rest
  | _, v :: rest => greatest v rest

end Function

end DocStore
