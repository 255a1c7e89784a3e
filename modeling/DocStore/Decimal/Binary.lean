/-!
# The exact form of a floating-point number

A finite `Float` is a sign and an integer times a power of two.  `Binary.ofFloat?` reads that form
off the bits, and whatever has to be exact about a floating-point number (its digits, its integer
part, its remainder) is computed on it in `Nat` and `Int`.
-/

namespace DocStore.Decimal

/-- The number `±significand · 2^exponent`. -/
structure Binary where
  negative : Bool
  significand : Nat
  exponent : Int
  deriving DecidableEq, Repr

namespace Binary

/-- The least exponent of a double: its smallest positive value is `2^(-1074)`. -/
def leastExponent : Int := -1074

/-- The significand at which a binade starts. -/
def binadeStart : Nat := Nat.pow 2 52

/-- The exact form of a finite number; infinities and NaN have none. -/
def ofFloat? (x : Float) : Option Binary :=
  let bits := x.toBits.toNat
  let negative := bits / Nat.pow 2 63 == 1
  let field := bits / binadeStart % Nat.pow 2 11
  let fraction := bits % binadeStart
  if field == 2047 then none
  else if field == 0 then some ⟨negative, fraction, leastExponent⟩
  else some ⟨negative, binadeStart + fraction, leastExponent + (field - 1 : Nat)⟩

/-- The magnitude as a numerator and a denominator. -/
def ratio (b : Binary) : Nat × Nat :=
  (b.significand * Nat.pow 2 b.exponent.toNat, Nat.pow 2 (-b.exponent).toNat)

/-- The integer part, rounded toward zero. -/
def truncate (b : Binary) : Int :=
  let (num, den) := b.ratio
  if b.negative then -(num / den : Nat) else (num / den : Nat)

/-- Whether the number is an integer. -/
def isWhole (b : Binary) : Bool :=
  let (num, den) := b.ratio
  num % den == 0

/-- The magnitude as a float.  A negative power of two is a decimal fraction:
`2^(-k) = 5^k / 10^k`. -/
def magnitude (b : Binary) : Float :=
  let k := (-b.exponent).toNat
  Float.ofScientific (b.significand * Nat.pow 2 b.exponent.toNat * Nat.pow 5 k) true k

def toFloat (b : Binary) : Float :=
  if b.negative then -b.magnitude else b.magnitude

/-- The remainder of truncated division: `a - b·n` for the integer `n` nearest to `a / b` on the
side of zero.  It has the sign of `a`, is smaller than `b`, and needs no rounding. -/
def remainder (a b : Binary) : Binary :=
  let q := min a.exponent b.exponent
  let wide (x : Binary) : Nat := x.significand * Nat.pow 2 (x.exponent - q).toNat
  ⟨a.negative, wide a % wide b, q⟩

end Binary

/-- The integer part of `x` inside the range of `Int64`: a number beyond it gives the nearest end,
and NaN gives zero. -/
def toInt64 (x : Float) : Int64 :=
  match Binary.ofFloat? x with
  | some b => Int64.ofInt (max Int64.minValue.toInt (min Int64.maxValue.toInt b.truncate))
  | none => if x.isNaN then 0 else if x < 0 then Int64.minValue else Int64.maxValue

/-- The remainder of truncated division on floats.  An infinite dividend or a zero divisor gives
NaN, an infinite divisor leaves the dividend as it is. -/
def remainder (x y : Float) : Float :=
  match Binary.ofFloat? x, Binary.ofFloat? y with
  | some a, some b => if b.significand = 0 then 0.0 / 0.0 else (a.remainder b).toFloat
  | some _, none => if y.isNaN then y else x
  | none, _ => 0.0 / 0.0

end DocStore.Decimal
