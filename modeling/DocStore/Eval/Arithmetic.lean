import DocStore.Decimal.Numeral
import DocStore.Expr.Basic
import DocStore.Text.Blank
import DocStore.Value.Order

/-!
# Operators on values

Operators take numbers from integers, booleans and the texts of numbers, and give null for what is no
number.  Integer arithmetic is exact while the result fits 64 bits, and goes over to floating-point
numbers where it does not.
-/

namespace DocStore

/-- A number as operators see it. -/
inductive Number where
  | int (value : Int64)
  | float (value : Float)
  deriving Inhabited

namespace Number

/-- The number that a text stands for. -/
def ofText? (text : String) : Option Number :=
  let cs := Text.trim text.toList
  ((Decimal.int64? cs).map Number.int).or ((Decimal.float? cs).map Number.float)

def ofValue? : Value → Option Number
  | .int i => some (.int i)
  | .uint n => some (.float (Value.floatOfUInt64 n))
  | .float x => some (.float x)
  | .bool b => some (.int (if b then 1 else 0))
  | .str s => ofText? s
  | _ => none

def toFloat : Number → Float
  | .int i => Value.floatOfInt64 i
  | .float x => x

def toInt64 : Number → Int64
  | .int i => i
  | .float x => Decimal.toInt64 x

end Number

namespace Arithmetic

/-- An integer, if it fits 64 bits. -/
def fits? (n : Int) : Option Int64 :=
  if Int64.minValue.toInt ≤ n ∧ n ≤ Int64.maxValue.toInt then some (Int64.ofInt n) else none

/-- The remainder of truncated division.  Where the quotient does not fit, there is none. -/
def remainder? (a b : Int64) : Option Int64 :=
  if a = Int64.minValue ∧ b = -1 then none else fits? (Int.tmod a.toInt b.toInt)

/-- An operation on two integers where its result fits, and on floating-point numbers otherwise. -/
def combine (onInts : Int64 → Int64 → Option Int64) (onFloats : Float → Float → Float)
    (l r : Number) : Value :=
  match l, r with
  | .int a, .int b =>
    match onInts a b with
    | some n => .int n
    | none => .float (onFloats l.toFloat r.toFloat)
  | _, _ => .float (onFloats l.toFloat r.toFloat)

/-- A shift by so many bits; one by a negative number or by a whole word gives zero. -/
def shift (move : Int64 → Int64 → Int64) (value amount : Int64) : Int64 :=
  if 0 ≤ amount ∧ amount < 64 then move value amount else 0

/-- The value of an operator on numbers. -/
def onNumbers (op : BinaryOp) (l r : Number) : Value :=
  match op with
  | .add => combine (fun a b => fits? (a.toInt + b.toInt)) (· + ·) l r
  | .sub => combine (fun a b => fits? (a.toInt - b.toInt)) (· - ·) l r
  | .mul => combine (fun a b => fits? (a.toInt * b.toInt)) (· * ·) l r
  | .div => if r.toFloat == 0.0 then .null else .float (l.toFloat / r.toFloat)
  | .mod => if r.toFloat == 0.0 then .null else combine remainder? Decimal.remainder l r
  | .bitAnd => .int (l.toInt64 &&& r.toInt64)
  | .bitOr => .int (l.toInt64 ||| r.toInt64)
  | .bitXor => .int (l.toInt64 ^^^ r.toInt64)
  | .shl => .int (shift (· <<< ·) l.toInt64 r.toInt64)
  | .shr => .int (shift (· >>> ·) l.toInt64 r.toInt64)
  | _ => .null

/-- Whether a comparison holds of two values that are not null. -/
def compares (op : BinaryOp) (l r : Value) : Bool :=
  match op with
  | .eq => l.looselyEquals r
  | .notEq => !l.looselyEquals r
  | .lt => l.compare? r == some .lt
  | .ltEq => l.compare? r == some .lt || l.compare? r == some .eq
  | .gt => l.compare? r == some .gt
  | .gtEq => l.compare? r == some .gt || l.compare? r == some .eq
  | _ => false

/-- The value of a binary operator other than `and` and `or`; null if an operand is. -/
def binary (op : BinaryOp) (l r : Value) : Value :=
  if l.isNull || r.isNull then .null
  else if op.isComparison then .bool (compares op l r)
  else
    match Number.ofValue? l, Number.ofValue? r with
    | some a, some b => onNumbers op a b
    | _, _ => .null

def negate : Number → Value
  | .int i =>
    match fits? (-i.toInt) with
    | some n => .int n
    | none => .float (-(Value.floatOfInt64 i))
  | .float x => .float (-x)

def absolute : Number → Value
  | .int i =>
    match fits? i.toInt.natAbs with
    | some n => .int n
    | none => .float (Value.floatOfInt64 i).abs
  | .float x => .float x.abs

/-- The value of a unary operator; null if the operand is. -/
def unary (op : UnaryOp) (value : Value) : Value :=
  if value.isNull then .null
  else
    match op with
    | .not => .bool !value.isTruthy
    | .neg => (Number.ofValue? value).elim .null negate
    | .bitNot => (Number.ofValue? value).elim .null fun n => .int (~~~ n.toInt64)

/-! ### Three-valued logic -/

/-- The value of `and`: false if an operand is, else null if an operand is. -/
def conjunction (l r : Value) : Value :=
  if !r.isNull && !r.isTruthy then .bool false
  else if l.isNull || r.isNull then .null
  else .bool true

/-- The value of `or`: true if an operand is, else null if an operand is. -/
def disjunction (l r : Value) : Value :=
  if r.isTruthy then .bool true
  else if l.isNull || r.isNull then .null
  else .bool false

end Arithmetic

end DocStore
