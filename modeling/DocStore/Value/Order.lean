import DocStore.Value.Json

/-!
# Comparing values

Three comparisons, from strict to total:

* `looselyEquals` is equality that takes `1` and `1.0` for the same, at any depth;
* `compare?` orders numbers among themselves, strings by code point, booleans, and null with null;
* `sortCompare` orders any two values: where `compare?` has no answer, values of different classes
  are ordered by class, and values of one class by their JSON text.
-/

namespace DocStore

namespace Value

mutual

def looselyEquals : Value → Value → Bool
  | .int a, .float b => floatOfInt64 a == b
  | .float a, .int b => floatOfInt64 b == a
  | .uint a, .float b => floatOfUInt64 a == b
  | .float a, .uint b => floatOfUInt64 b == a
  | .arr xs, .arr ys => looselyEqualItems xs ys
  | .obj ms, .obj ns => ms.length == ns.length && looselyEqualMembers ms ns
  | a, b => a == b

def looselyEqualItems : List Value → List Value → Bool
  | [], [] => true
  | x :: xs, y :: ys => looselyEquals x y && looselyEqualItems xs ys
  | _, _ => false

/-- Every member has a counterpart of its name with a loosely equal value. -/
def looselyEqualMembers : List (String × Value) → List (String × Value) → Bool
  | [], _ => true
  | (key, v) :: rest, ns =>
    (match Assoc.get? ns key with
      | some w => looselyEquals v w
      | none => false) && looselyEqualMembers rest ns

end

/-- The order of two doubles; a NaN has none. -/
def compareFloats? (a b : Float) : Option Ordering :=
  if a < b then some .lt
  else if a == b then some .eq
  else if b < a then some .gt
  else none

/-- The order of two values of one class, if they compare at all. -/
def compare? : Value → Value → Option Ordering
  | .int a, .int b => some (compare a.toInt b.toInt)
  | .uint a, .uint b => some (compare a.toNat b.toNat)
  | .int _, .uint _ => some .lt
  | .uint _, .int _ => some .gt
  | .str a, .str b => some (compare a b)
  | .bool a, .bool b => some (compare a b)
  | .null, .null => some .eq
  | a, b =>
    match a.float?, b.float? with
    | some x, some y => compareFloats? x y
    | _, _ => none

/-- The place of a value's class in the sort order. -/
def rank : Value → Nat
  | .null => 0
  | .int _ | .uint _ | .float _ => 1
  | .str _ => 2
  | .bool _ => 3
  | .arr _ => 4
  | .obj _ => 5

/-- The order used for sorting: nulls first, then numbers, strings, booleans, arrays, objects. -/
def sortCompare (a b : Value) : Ordering :=
  match compare? a b with
  | some order => order
  | none => (compare a.rank b.rank).then (compare a.text b.text)

/-- The values in sort order; equal ones keep their order. -/
def sort (values : List Value) : List Value :=
  values.mergeSort fun a b => (sortCompare a b).isLE

end Value

end DocStore
