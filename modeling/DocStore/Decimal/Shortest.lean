import DocStore.Decimal.Binary

/-!
# The shortest decimal text of a floating-point number

Of all decimals that read back as a given number, the text shows one with the fewest digits, and of
those the one nearest to the number.  `Binary.shortest` finds it on the exact form of the number;
`Layout.render` places its digits.
-/

namespace DocStore.Decimal

/-- The number `digits · 10^exponent`. -/
structure Scaled where
  digits : Nat
  exponent : Int
  deriving DecidableEq, Repr

namespace Binary

/-- The gap below a number is half the gap above it where a binade starts. -/
def gapBelowIsHalf (b : Binary) : Bool :=
  b.significand == binadeStart && leastExponent < b.exponent

/-- A grid point `c · 10^k` of the decimals near `b`, if one reads back as `b`: the nearer of the
two neighbours of `b`, an exact tie going to the even one.

All numbers are compared in quarters of the gap above `b`, so that the ends of the interval of
reals that round to `b` are integers.  The ends belong to it iff the significand is even. -/
def hit? (b : Binary) (k : Int) : Option Nat :=
  let scale := Nat.pow 2 (b.exponent - 2).toNat * Nat.pow 10 (-k).toNat
  let unit := Nat.pow 10 k.toNat * Nat.pow 2 (2 - b.exponent).toNat
  let centre := 4 * b.significand * scale
  let low := (4 * b.significand - if b.gapBelowIsHalf then 1 else 2) * scale
  let high := (4 * b.significand + 2) * scale
  let reads (c : Nat) : Bool :=
    if b.significand % 2 == 0 then low ≤ c * unit && c * unit ≤ high
    else low < c * unit && c * unit < high
  let below := centre / unit
  let above := below + 1
  match reads below, reads above with
  | true, false => some below
  | false, true => some above
  | false, false => none
  | true, true =>
    let down := centre - below * unit
    let up := above * unit - centre
    if down < up || (down == up && below % 2 == 0) then some below else some above

/-- An upper bound of the decimal exponent of `b`: `b < 10^(ceilLog10 b)`. -/
def ceilLog10 (b : Binary) : Int :=
  (b.significand.log2 + b.exponent) * 30103 / 100000 + 2

/-- The shortest decimal that reads back as a positive `b`: the first hit on ever finer grids.
Seventeen digits always suffice. -/
def shortest (b : Binary) : Scaled :=
  let finer (i : Nat) : Option Scaled :=
    let k := b.ceilLog10 - i
    (b.hit? k).map (Scaled.mk · k)
  ((List.range 21).findSome? finer).getD ⟨0, 0⟩

end Binary

/-- How digits are laid out as text. -/
structure Layout where
  /-- The least exponent of ten that is written without an exponent. -/
  leastPlain : Int
  /-- The least exponent of ten, above that, written with an exponent again. -/
  firstScientific : Int

/-- Numbers of a document are written plainly from `0.00001` up to below `1e+16`. -/
def Layout.document : Layout := ⟨-5, 16⟩

namespace Layout

def zeros (n : Nat) : List Char := List.replicate n '0'

/-- The text of a positive number.  Plain text always has a fraction, an exponent always a sign. -/
def render (layout : Layout) (number : Scaled) : List Char :=
  let digits := Nat.toDigits 10 number.digits
  let count := digits.length
  let e := number.exponent + count - 1
  if layout.leastPlain ≤ e ∧ e < layout.firstScientific then
    if e < 0 then ['0', '.'] ++ zeros (-e - 1).toNat ++ digits
    else
      let whole := e.toNat + 1
      if count ≤ whole then digits ++ zeros (whole - count) ++ ['.', '0']
      else digits.take whole ++ '.' :: digits.drop whole
  else
    let fraction := if count = 1 then [] else '.' :: digits.drop 1
    let sign := if e < 0 then '-' else '+'
    digits.take 1 ++ fraction ++ 'e' :: sign :: Nat.toDigits 10 e.natAbs

end Layout

/-- The text of a finite number, with a sign on negative zero too; none for infinities and NaN. -/
def text? (x : Float) : Option String :=
  (Binary.ofFloat? x).map fun b =>
    let body := if b.significand = 0 then ['0', '.', '0'] else Layout.document.render b.shortest
    String.ofList (if b.negative then '-' :: body else body)

end DocStore.Decimal
