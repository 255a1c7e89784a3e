/-!
# Reading numerals

Whole texts as numbers: unsigned and signed integers, and floating-point numbers.  A sign is
optional, nothing may surround the numeral, and a floating-point numeral is read to the nearest
double.
-/

namespace DocStore.Decimal

/-- The value of a run of decimal digits. -/
def valueOf (digits : List Char) : Nat :=
  digits.foldl (fun n c => 10 * n + (c.toNat - '0'.toNat)) 0

/-- One or more decimal digits. -/
def digits? (cs : List Char) : Option Nat :=
  if !cs.isEmpty && cs.all Char.isDigit then some (valueOf cs) else none

/-- Digits after an optional plus. -/
def natural? : List Char → Option Nat
  | '+' :: cs => digits? cs
  | cs => digits? cs

/-- Digits after an optional sign. -/
def integer? : List Char → Option Int
  | '-' :: cs => (digits? cs).map fun n => -(n : Int)
  | cs => (natural? cs).map Int.ofNat

/-- A natural number below a bound. -/
def naturalBelow? (bound : Nat) (cs : List Char) : Option Nat :=
  (natural? cs).filter (· < bound)

/-- An integer that fits 64 bits with a sign. -/
def int64? (cs : List Char) : Option Int64 :=
  (integer? cs).bind fun n =>
    if Int64.minValue.toInt ≤ n ∧ n ≤ Int64.maxValue.toInt then some (Int64.ofInt n) else none

/-- A natural number that fits 64 bits. -/
def uint64? (cs : List Char) : Option UInt64 :=
  (naturalBelow? UInt64.size cs).map UInt64.ofNat

/-- The number `significand · 10^exponent`, rounded to the nearest double.  Beyond four hundred decimal places
on either side every number is infinite or zero, so powers of ten stay small. -/
def nearest (significand : Nat) (exponent : Int) : Float :=
  let places := exponent + (Nat.toDigits 10 significand).length
  if significand = 0 ∨ places < -400 then 0.0
  else if 400 < places then 1.0 / 0.0
  else Float.ofScientific significand (exponent < 0) exponent.natAbs

/-- The part of a numeral from its exponent mark on: nothing, or the mark and a signed integer. -/
def exponent? : List Char → Option Int
  | [] => some 0
  | c :: cs => if c = 'e' ∨ c = 'E' then integer? cs else none

/-- Digits with an optional fraction and exponent, with a digit before or after the point. -/
def unsignedFloat? (cs : List Char) : Option Float :=
  let whole := cs.takeWhile Char.isDigit
  let rest := cs.dropWhile Char.isDigit
  let (fraction, rest) := match rest with
    | '.' :: rest => (rest.takeWhile Char.isDigit, rest.dropWhile Char.isDigit)
    | _ => ([], rest)
  if whole.isEmpty && fraction.isEmpty then none
  else (exponent? rest).map fun e => nearest (valueOf (whole ++ fraction)) (e - fraction.length)

/-- The spellings of numbers that have no digits, in lower case. -/
def named? (cs : List Char) : Option Float :=
  match String.ofList (cs.map Char.toLower) with
  | "inf" | "infinity" => some (1.0 / 0.0)
  | "nan" => some (0.0 / 0.0)
  | _ => none

/-- A floating-point numeral. -/
def float? (cs : List Char) : Option Float :=
  let unsigned? (cs : List Char) := (named? cs).or (unsignedFloat? cs)
  match cs with
  | '-' :: cs => (unsigned? cs).map Float.neg
  | '+' :: cs => unsigned? cs
  | cs => unsigned? cs

end DocStore.Decimal
