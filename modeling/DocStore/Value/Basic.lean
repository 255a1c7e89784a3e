import DocStore.Assoc
import DocStore.Decimal.Binary

/-!
# Document values

Documents, literals and bindings are all made of one kind of tree.  An integer is `int` where it
fits 64 bits with a sign and `uint` above that, so a `uint` is greater than every `int`; any other
number is `float`.

Equality (`==`) tells `1` from `1.0`, takes a NaN to differ from itself, and ignores the order of an
object's members.
-/

namespace DocStore

inductive Value where
  | null
  | bool (value : Bool)
  | int (value : Int64)
  | uint (value : UInt64)
  | float (value : Float)
  | str (value : String)
  | arr (items : List Value)
  | obj (members : List (String × Value))
  deriving Inhabited

/-- The members of an object, in order. -/
abbrev Document := List (String × Value)

namespace Value

/-- The name of a value's type; both integer forms are one type. -/
def typeName : Value → String
  | .null => "null"
  | .bool _ => "bool"
  | .int _ | .uint _ => "int"
  | .float _ => "float"
  | .str _ => "string"
  | .arr _ => "array"
  | .obj _ => "object"

def isNull : Value → Bool
  | .null => true
  | _ => false

def isNumber : Value → Bool
  | .int _ | .uint _ | .float _ => true
  | _ => false

/-- A natural number below `2^64` as an integer value. -/
def ofUInt64 (n : UInt64) : Value :=
  if (n.toNat : Int) ≤ Int64.maxValue.toInt then .int (Int64.ofNat n.toNat) else .uint n

def ofOption : Option Value → Value
  | some v => v
  | none => .null

/-! ### Views -/

def str? : Value → Option String
  | .str s => some s
  | _ => none

def bool? : Value → Option Bool
  | .bool b => some b
  | _ => none

/-- The value as a 64-bit integer: an `int`, or a `float` without a fraction and smaller than
`2^63` in magnitude. -/
def int64? : Value → Option Int64
  | .int i => some i
  | .float x =>
    match Decimal.Binary.ofFloat? x with
    | some b =>
      let n := b.truncate
      if b.isWhole && Int64.minValue.toInt < n && n ≤ Int64.maxValue.toInt then some (Int64.ofInt n)
      else none
    | none => none
  | _ => none

/-- An integer as the nearest double. -/
def floatOfInt64 (i : Int64) : Float := Float.ofInt i.toInt

/-- An integer as the nearest double. -/
def floatOfUInt64 (n : UInt64) : Float := Float.ofNat n.toNat

def float? : Value → Option Float
  | .int i => some (floatOfInt64 i)
  | .uint n => some (floatOfUInt64 n)
  | .float x => some x
  | _ => none

def items? : Value → Option (List Value)
  | .arr items => some items
  | _ => none

def members? : Value → Option Document
  | .obj members => some members
  | _ => none

/-- The member of an object by its name. -/
def get? : Value → String → Option Value
  | .obj members, key => Assoc.get? members key
  | _, _ => none

/-- Truth in a condition: null, false, zero and the empty string are false. -/
def isTruthy : Value → Bool
  | .null => false
  | .bool b => b
  | .int i => i != 0
  | .uint _ => true
  | .float x => x != 0.0
  | .str s => !s.isEmpty
  | .arr _ | .obj _ => true

/-! ### Equality -/

mutual

def same : Value → Value → Bool
  | .null, .null => true
  | .bool a, .bool b => a == b
  | .int a, .int b => a == b
  | .uint a, .uint b => a == b
  | .float a, .float b => a == b
  | .str a, .str b => a == b
  | .arr xs, .arr ys => sameItems xs ys
  | .obj ms, .obj ns => ms.length == ns.length && sameMembers ms ns
  | _, _ => false

def sameItems : List Value → List Value → Bool
  | [], [] => true
  | x :: xs, y :: ys => same x y && sameItems xs ys
  | _, _ => false

/-- Every member has a counterpart of its name with an equal value. -/
def sameMembers : List (String × Value) → List (String × Value) → Bool
  | [], _ => true
  | (key, v) :: rest, ns =>
    (match Assoc.get? ns key with
      | some w => same v w
      | none => false) && sameMembers rest ns

end

instance : BEq Value := ⟨same⟩

end Value

end DocStore
