import DocStore.Json.Basic
import DocStore.Assoc
import DocStore.Text.Reader

/-!
# Reading JSON text

`Json.parse?` reads a whole text with blanks around it; a text is JSON or it is not.

A numeral without fraction and exponent is an integer while it fits 64 bits; the numeral `-0`, any
numeral with a fraction or an exponent and any larger integer is a floating-point number.
-/

namespace DocStore

namespace Json

open Text Text.Reader

namespace Reader

def isBlank (c : Char) : Bool := c = ' ' || c = '\t' || c = '\n' || c = '\r'

def blanks : Reader Unit := do
  let _ ← takeWhile isBlank

/-! ### Numerals -/

def digitValue (c : Char) : Nat := c.toNat - '0'.toNat

/-- The largest significand of a numeral. -/
def greatestSignificand : Nat := UInt64.size - 1

/-- Extend a significand by the digits that follow as long as it fits 64 bits, counting them. -/
def significand (start : Nat) (cs : List Char) : Nat × Nat × List Char :=
  go start 0 cs
where
  go (value count : Nat) : List Char → Nat × Nat × List Char
    | c :: cs =>
      let wider := 10 * value + digitValue c
      if c.isDigit && wider ≤ greatestSignificand then go wider (count + 1) cs
      else (value, count, c :: cs)
    | [] => (value, count, [])

def powerOfTen (places : Nat) : Float := Float.ofScientific 1 false places

/-- The greatest power of ten that is a double. -/
def greatestPower : Nat := 308

/-- Divide by a power of ten, in steps once the power is no double. -/
def shrink (x : Float) (places : Nat) : Float :=
  if places ≤ greatestPower then x / powerOfTen places
  else if x == 0.0 then x
  else shrink (x / powerOfTen greatestPower) (places - greatestPower)
termination_by places
decreasing_by exact Nat.sub_lt (by omega) (by decide)

/-- The value of a numeral: its significand as a double, then one multiplication or division by the
power of ten.  A value that overflows is refused, one that underflows is zero. -/
def scaled (negative : Bool) (significand : Nat) (exponent : Int) : Reader Json := do
  let x := Float.ofNat significand
  let places := exponent.natAbs
  if 0 ≤ exponent then
    if places ≤ greatestPower then
      let y := x * powerOfTen places
      if y.isInf then failure else return signed y
    else if significand = 0 then return signed x
    else failure
  else return signed (shrink x places)
where
  signed (x : Float) : Json := .float (if negative then -x else x)

/-- The exponent of a numeral, its mark being next. -/
def exponentPart (negative : Bool) (significand : Nat) (start : Int) : Reader Json := do
  let _ ← next
  let below ← eat '-'
  if !below then
    let _ ← eat '+'
  let digits ← takeWhile Char.isDigit
  if digits.isEmpty then failure
  let size := digits.foldl (fun n c => 10 * n + digitValue c) 0
  scaled negative significand (if below then start - size else start + size)

def exponentMark (c : Option Char) : Bool := c = some 'e' || c = some 'E'

/-- Where a numeral with a significand and a power of ten goes on: at an exponent, or nowhere. -/
def tail (negative : Bool) (significand : Nat) (exponent : Int) : Reader Json := do
  if exponentMark (← peek?) then exponentPart negative significand exponent
  else scaled negative significand exponent

/-- The fraction of a numeral, its point being next.  Digits that no longer fit the significand are
dropped. -/
def fractionPart (negative : Bool) (start : Nat) (exponent : Int) : Reader Json := do
  let _ ← next
  let (value, count, rest) := significand start (← get)
  set rest
  let dropped ← takeWhile Char.isDigit
  if count = 0 && dropped.isEmpty then failure
  tail negative value (exponent - count)

/-- A numeral without fraction and exponent that fits 64 bits. -/
def wholeNumber (negative : Bool) (value : Nat) : Json :=
  if negative then
    if 0 < value ∧ value ≤ Int64.minValue.toInt.natAbs then .int (-(value : Int))
    else .float (-(Float.ofNat value))
  else .int value

/-- A numeral; no leading zeros, and no sign but a minus. -/
def number : Reader Json := do
  let negative ← eat '-'
  let first ← next
  if !first.isDigit then failure
  let cs ← get
  let (value, _, rest) := if first = '0' then (0, 0, cs) else significand (digitValue first) cs
  set rest
  let further := (← takeWhile Char.isDigit).length
  if first = '0' && 0 < further then failure
  match ← peek? with
  | some '.' => fractionPart negative value further
  | some 'e' | some 'E' => exponentPart negative value further
  | _ => if further = 0 then return wholeNumber negative value else scaled negative value further

/-! ### Strings -/

/-- Four hexadecimal digits. -/
def hex4 : Reader Nat := do
  let digit : Reader Nat := do (hexValue? (← next)).elim failure pure
  return 4096 * (← digit) + 256 * (← digit) + 16 * (← digit) + (← digit)

/-- The character of a `\u` escape.  A high surrogate needs the escape of a low one after it, and a
low one may not stand alone. -/
def unicodeEscape : Reader Char := do
  let unit ← hex4
  if 0xD800 ≤ unit ∧ unit < 0xDC00 then
    expect "\\u"
    let low ← hex4
    if 0xDC00 ≤ low ∧ low < 0xE000 then
      return Char.ofNat (0x10000 + 0x400 * (unit - 0xD800) + (low - 0xDC00))
    else failure
  else if 0xDC00 ≤ unit ∧ unit < 0xE000 then failure
  else return Char.ofNat unit

/-- The character that an escape stands for, its backslash being taken. -/
def escape : Reader Char := do
  match ← next with
  | '"' => return '"'
  | '\\' => return '\\'
  | '/' => return '/'
  | 'b' => return Char.ofNat 8
  | 'f' => return Char.ofNat 12
  | 'n' => return '\n'
  | 'r' => return '\r'
  | 't' => return '\t'
  | 'u' => unicodeEscape
  | _ => failure

/-- The characters up to the closing quote.  Each takes at least one character of the text, so its
length bounds their number. -/
def stringBody : Nat → Reader (List Char)
  | 0 => failure
  | bound + 1 => do
    match ← next with
    | '"' => return []
    | '\\' => return (← escape) :: (← stringBody bound)
    | c => if c.toNat < 0x20 then failure else return c :: (← stringBody bound)

/-- A string literal. -/
def string : Reader String := do
  expect "\""
  return String.ofList (← stringBody (← get).length)

/-! ### Values -/

/-- What stands between an opening bracket and `closing`: elements with commas between them. -/
def elements {α : Type} (element : Reader α) (closing : Char) : Reader (List α) := do
  blanks
  if ← eat closing then return []
  let first ← element
  return first :: (← further (← get).length)
where
  further : Nat → Reader (List α)
    | 0 => failure
    | bound + 1 => do
      blanks
      if ← eat closing then return []
      expect ","
      blanks
      let x ← element
      return x :: (← further bound)

/-- A member: its name, a colon and its value. -/
def member (value : Reader Json) : Reader (String × Json) := do
  blanks
  let key ← string
  blanks
  expect ":"
  return (key, ← value)

def scalar : Reader Json := do
  match ← peek? with
  | some 'n' => expect "null"; return .null
  | some 't' => expect "true"; return .bool true
  | some 'f' => expect "false"; return .bool false
  | some '"' => return .str (← string)
  | _ => number

/-- A value in which at most `depth` brackets are open at once. -/
def value : Nat → Reader Json
  | 0 => do blanks; scalar
  | depth + 1 => do
    blanks
    if ← eat '[' then return .arr (← elements (value depth) ']')
    else if ← eat '\x7b' then return .obj (Assoc.ofList (← elements (member (value depth)) '\x7d'))
    else scalar

end Reader

/-- The number of brackets that may be open at once in a text. -/
def greatestDepth : Nat := 127

/-- The tree of a text whose brackets nest at most `depth` deep. -/
def parseWithin? (depth : Nat) (text : String) : Option Json :=
  Text.Reader.run? (do let v ← Reader.value depth; Reader.blanks; return v) text

/-- The tree of a text, if it is JSON. -/
def parse? (text : String) : Option Json := parseWithin? greatestDepth text

end Json

end DocStore
