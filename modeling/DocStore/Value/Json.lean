import DocStore.Value.Basic
import DocStore.Json.Printer
import DocStore.Json.Reader

/-!
# Values and JSON trees

`Value.ofJson` gives each integer the form its size asks for; `Value.toJson` forgets that form, and
turns a number without digits (an infinity or NaN) into null.  `Value.text` is the JSON text of a
value.
-/

namespace DocStore

namespace Value

/-- An integer in the form its size asks for; beyond 64 bits it is a floating-point number. -/
def ofInt (n : Int) : Value :=
  if Int64.minValue.toInt ≤ n ∧ n ≤ Int64.maxValue.toInt then .int (Int64.ofInt n)
  else if 0 ≤ n ∧ n.toNat < UInt64.size then .uint (UInt64.ofNat n.toNat)
  else .float (Float.ofInt n)

mutual

def ofJson : Json → Value
  | .null => .null
  | .bool b => .bool b
  | .int n => ofInt n
  | .float x => .float x
  | .str s => .str s
  | .arr items => .arr (ofJsonItems items)
  | .obj members => .obj (ofJsonMembers members)

def ofJsonItems : List Json → List Value
  | [] => []
  | item :: rest => ofJson item :: ofJsonItems rest

def ofJsonMembers : List (String × Json) → List (String × Value)
  | [] => []
  | (key, value) :: rest => (key, ofJson value) :: ofJsonMembers rest

end

def isFinite (x : Float) : Bool := (Decimal.Binary.ofFloat? x).isSome

mutual

def toJson : Value → Json
  | .null => .null
  | .bool b => .bool b
  | .int i => .int i.toInt
  | .uint n => .int n.toNat
  | .float x => if isFinite x then .float x else .null
  | .str s => .str s
  | .arr items => .arr (toJsonItems items)
  | .obj members => .obj (toJsonMembers members)

def toJsonItems : List Value → List Json
  | [] => []
  | item :: rest => toJson item :: toJsonItems rest

def toJsonMembers : List (String × Value) → List (String × Json)
  | [] => []
  | (key, value) :: rest => (key, toJson value) :: toJsonMembers rest

end

/-- The JSON text of a value, without spacing. -/
def text (v : Value) : String := v.toJson.compress

/-- The value of a JSON text. -/
def parse? (source : String) : Option Value := (Json.parse? source).map ofJson

end Value

end DocStore
