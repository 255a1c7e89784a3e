import DocStore.Decimal.Numeral
import DocStore.Text.Reader
import DocStore.Toml.Basic

/-!
# Reading TOML

`Toml.parse?` reads a whole document.  Values may be strings of all four forms, integers of the bases
two, eight, ten and sixteen, floating-point numbers, booleans, dates and times, arrays and inline
tables.
-/

namespace DocStore

namespace Toml

open Text Text.Reader

/-! ### Scalars

A scalar without quotes is a run of characters whose form decides what it is. -/

/-- Digits of a class without the underscores that may stand between any two of them. -/
def ungroup (p : Char → Bool) : List Char → Option (List Char)
  | [] => none
  | [c] => if p c then some [c] else none
  | c :: '_' :: rest => if p c then (ungroup p rest).map (c :: ·) else none
  | c :: rest => if p c then (ungroup p rest).map (c :: ·) else none

/-- The number of digits in a base. -/
def inBase (base : Nat) (digits : List Char) : Nat :=
  digits.foldl (fun n c => base * n + (hexValue? c).getD 0) 0

/-- A decimal integer without sign and leading zeros. -/
def wholeDigits? (cs : List Char) : Option (List Char) :=
  (ungroup Char.isDigit cs).filter fun digits => digits.length = 1 || digits.head? != some '0'

/-- An integer of the base that its first characters name. -/
def based? : List Char → Option Int
  | '0' :: 'x' :: cs => (ungroup (fun c => (hexValue? c).isSome) cs).map fun ds => inBase 16 ds
  | '0' :: 'o' :: cs => (ungroup (fun c => '0' ≤ c && c ≤ '7') cs).map fun ds => inBase 8 ds
  | '0' :: 'b' :: cs => (ungroup (fun c => c = '0' || c = '1') cs).map fun ds => inBase 2 ds
  | _ => none

/-- A sign, if there is one, and what follows it. -/
def splitSign : List Char → Bool × List Char
  | '-' :: cs => (true, cs)
  | '+' :: cs => (false, cs)
  | cs => (false, cs)

def signedInteger? (cs : List Char) : Option Int :=
  let (negative, rest) := splitSign cs
  (wholeDigits? rest).map fun ds => if negative then -(inBase 10 ds : Int) else inBase 10 ds

/-- An integer, which must fit 64 bits. -/
def integer? (cs : List Char) : Option Toml :=
  (((based? cs).or (signedInteger? cs)).filter fun n =>
    Int64.minValue.toInt ≤ n && n ≤ Int64.maxValue.toInt).map .int

/-- An exponent: its mark, a sign and digits. -/
def isExponent : List Char → Bool
  | c :: cs => (c = 'e' || c = 'E') && (ungroup Char.isDigit (splitSign cs).2).isSome
  | [] => false

def isExponentMark (c : Char) : Bool := c = 'e' || c = 'E'

/-- Whether a numeral without sign has a whole part and a fraction, an exponent or both. -/
def isFloat (cs : List Char) : Bool :=
  let whole := cs.takeWhile fun c => !(c = '.' || isExponentMark c)
  (wholeDigits? whole).isSome && match cs.drop whole.length with
    | '.' :: rest =>
      let fraction := rest.takeWhile fun c => !isExponentMark c
      let tail := rest.drop fraction.length
      (ungroup Char.isDigit fraction).isSome && (tail.isEmpty || isExponent tail)
    | rest => isExponent rest

/-- A floating-point number, which must not overflow. -/
def float? (cs : List Char) : Option Toml :=
  let (negative, rest) := splitSign cs
  let signed (x : Float) : Toml := .float (if negative then -x else x)
  match String.ofList rest with
  | "inf" => some (signed (1.0 / 0.0))
  | "nan" => some (signed (0.0 / 0.0))
  | _ =>
    if isFloat rest then
      ((Decimal.unsignedFloat? (rest.filter (· != '_'))).filter fun x => !x.isInf).map signed
    else none

/-- A number of two digits. -/
def two? : List Char → Option Nat
  | [a, b] => if a.isDigit && b.isDigit then some (inBase 10 [a, b]) else none
  | _ => none

def isLeapYear (year : Nat) : Bool := year % 4 = 0 && (year % 100 != 0 || year % 400 = 0)

def daysIn (year month : Nat) : Nat :=
  match month with
  | 2 => if isLeapYear year then 29 else 28
  | 4 | 6 | 9 | 11 => 30
  | _ => 31

/-- `YYYY-MM-DD` -/
def isDate : List Char → Bool
  | [y₁, y₂, y₃, y₄, '-', m₁, m₂, '-', d₁, d₂] =>
    match two? [y₁, y₂], two? [y₃, y₄], two? [m₁, m₂], two? [d₁, d₂] with
    | some century, some year, some month, some day =>
      1 ≤ month && month ≤ 12 && 1 ≤ day && day ≤ daysIn (100 * century + year) month
    | _, _, _, _ => false
  | _ => false

/-- `HH:MM` -/
def isHourMinute : List Char → Bool
  | [h₁, h₂, ':', m₁, m₂] =>
    match two? [h₁, h₂], two? [m₁, m₂] with
    | some hour, some minute => hour ≤ 23 && minute ≤ 59
    | _, _ => false
  | _ => false

/-- `:SS`, with a fraction or without. -/
def isSecond : List Char → Bool
  | ':' :: s₁ :: s₂ :: fraction =>
    (two? [s₁, s₂]).any (· ≤ 60) && match fraction with
      | [] => true
      | '.' :: digits => !digits.isEmpty && digits.all Char.isDigit
      | _ => false
  | _ => false

/-- A time of day. -/
def isTime (cs : List Char) : Bool := isHourMinute (cs.take 5) && isSecond (cs.drop 5)

/-- The distance from the universal time. -/
def isOffset : List Char → Bool
  | ['Z'] | ['z'] => true
  | '+' :: cs | '-' :: cs => isHourMinute cs
  | _ => false

/-- A time of day, with an offset or without. -/
def isZonedTime (cs : List Char) : Bool :=
  let time := cs.takeWhile fun c => c.isDigit || c = ':' || c = '.'
  let offset := cs.drop time.length
  isTime time && (offset.isEmpty || isOffset offset)

/-- A date, a time, or both with a `T` between them. -/
def isMoment (cs : List Char) : Bool :=
  isDate cs || isTime cs || match cs.drop 10 with
    | c :: time => (c = 'T' || c = 't') && isDate (cs.take 10) && isZonedTime time
    | [] => false

/-- The scalar of a run of characters. -/
def bare? (cs : List Char) : Option Toml :=
  match String.ofList cs with
  | "true" => some (.bool true)
  | "false" => some (.bool false)
  | _ => if isMoment cs then some .moment else (float? cs).or (integer? cs)

def isBareChar (c : Char) : Bool :=
  c.isAlphanum || c = '_' || c = '+' || c = '-' || c = '.' || c = ':'

/-- A scalar without quotes.  A date may be followed by a blank and a time. -/
def bare : Reader Toml := do
  let cs ← takeWhile isBareChar
  match ← get with
  | ' ' :: c :: rest =>
    if isDate cs && c.isDigit then
      set (c :: rest)
      if isZonedTime (← takeWhile isBareChar) then return .moment else failure
    else (bare? cs).elim failure pure
  | _ => (bare? cs).elim failure pure

/-! ### Blanks and comments -/

def blanks : Reader Unit := do
  let _ ← takeWhile fun c => c = ' ' || c = '\t'

/-- Whether a character may stand in a text of one line. -/
def isLineChar (c : Char) : Bool := c = '\t' || (0x20 ≤ c.toNat && c.toNat != 0x7F)

/-- Take a line break if it is next. -/
def newline : Reader Bool := do
  if ← eat '\n' then return true else eatText "\r\n"

/-- Take a comment if it is next. -/
def comment : Reader Bool := do
  if ← eat '#' then
    let _ ← takeWhile isLineChar
    return true
  else return false

/-- The end of a line: blanks, a comment and a line break or the end of the text. -/
def lineEnd : Reader Unit := do
  blanks
  let _ ← comment
  if ← newline then return () else if ← atEnd then return () else failure

/-- Pass over blanks, comments and line breaks.  Each round takes a character, so the length of the
text bounds their number. -/
def spacing : Nat → Reader Unit
  | 0 => return ()
  | bound + 1 => do
    blanks
    let line ← newline
    let note ← comment
    if line || note then spacing bound else return ()

/-! ### Strings -/

/-- The character of a given number of hexadecimal digits. -/
def escapedCode (length : Nat) : Reader Char := do
  let digits ← (List.replicate length ()).mapM fun _ => nextOf fun c => (hexValue? c).isSome
  let code := inBase 16 digits
  if Nat.isValidChar code then return Char.ofNat code else failure

/-- The character that an escape stands for, its backslash being taken. -/
def escape : Reader Char := do
  match ← next with
  | '"' => return '"'
  | '\\' => return '\\'
  | 'b' => return Char.ofNat 8
  | 'f' => return Char.ofNat 12
  | 'n' => return '\n'
  | 'r' => return '\r'
  | 't' => return '\t'
  | 'u' => escapedCode 4
  | 'U' => escapedCode 8
  | _ => failure

/-- The characters of a string of one line up to its closing quote; escapes count between double
quotes. -/
def lineBody (quote : Char) : Nat → Reader (List Char)
  | 0 => failure
  | bound + 1 => do
    let c ← next
    if c = quote then return []
    else if c = '\\' && quote = '"' then return (← escape) :: (← lineBody quote bound)
    else if isLineChar c then return c :: (← lineBody quote bound)
    else failure

/-- Pass over a backslash at the end of a line, and all blanks and line breaks after it. -/
def continuation : Reader Bool := do
  let cs ← get
  let after := (cs.drop 1).dropWhile fun c => c = ' ' || c = '\t'
  let breaks := after.head? = some '\n' || "\r\n".toList.isPrefixOf after
  if cs.head? = some '\\' && breaks then
    set (after.dropWhile fun c => c = ' ' || c = '\t' || c = '\n' || c = '\r')
    return true
  else return false

/-- The characters of a string of several lines up to its closing quotes, before which two further
quotes may stand. -/
def textBody (quote : Char) : Nat → Reader (List Char)
  | 0 => failure
  | bound + 1 => do
    if ← newline then return '\n' :: (← textBody quote bound)
    else if (← peek?) = some quote then
      let quotes := (← get).takeWhile (· = quote)
      let count := min quotes.length 5
      set ((← get).drop count)
      if 3 ≤ count then return List.replicate (count - 3) quote
      else return List.replicate count quote ++ (← textBody quote bound)
    else if quote = '"' then
      if ← continuation then textBody quote bound
      else if ← eat '\\' then return (← escape) :: (← textBody quote bound)
      else return (← nextOf isLineChar) :: (← textBody quote bound)
    else return (← nextOf isLineChar) :: (← textBody quote bound)

/-- A string of one line, its opening quote being next. -/
def lineString (quote : Char) : Reader String := do
  let _ ← next
  return String.ofList (← lineBody quote (← get).length)

/-- A string, its opening quote being next.  A line break right after three quotes does not count. -/
def string (quote : Char) : Reader String := do
  if ← eatText (String.ofList [quote, quote, quote]) then
    let _ ← newline
    return String.ofList (← textBody quote ((← get).length + 1))
  else lineString quote

/-! ### Keys -/

def isKeyChar (c : Char) : Bool := c.isAlphanum || c = '_' || c = '-'

def simpleKey : Reader String := do
  match ← peek? with
  | some '"' => lineString '"'
  | some '\'' => lineString '\''
  | _ =>
    let cs ← takeWhile isKeyChar
    if cs.isEmpty then failure else return String.ofList cs

/-- A key of one or more parts with points between them. -/
def key : Nat → Reader (List String)
  | 0 => failure
  | bound + 1 => do
    blanks
    let first ← simpleKey
    blanks
    if ← eat '.' then return first :: (← key bound) else return [first]

def anyKey : Reader (List String) := do key ((← get).length + 1)

/-! ### Values -/

/-- A key, an equals sign and a value. -/
def pair (value : Reader Toml) : Reader (List String × Toml) := do
  let path ← anyKey
  expect "="
  blanks
  return (path, ← value)

/-- The pairs of an inline table, its opening brace being taken. -/
def inlinePairs (value : Reader Toml) : Nat → Reader (List (List String × Toml))
  | 0 => failure
  | bound + 1 => do
    let first ← pair value
    blanks
    if ← eat ',' then return first :: (← inlinePairs value bound)
    else
      expect "\x7d"
      return [first]

/-- The items of an array, its opening bracket being taken; a comma may follow the last one. -/
def arrayItems (value : Reader Toml) : Nat → Reader (List Toml)
  | 0 => failure
  | bound + 1 => do
    spacing (← get).length
    if ← eat ']' then return []
    let first ← value
    spacing (← get).length
    if ← eat ',' then return first :: (← arrayItems value bound)
    else
      expect "]"
      return [first]

/-- A value in which at most `depth` brackets are open at once. -/
def value : Nat → Reader Toml
  | 0 => failure
  | depth + 1 => do
    match ← peek? with
    | some '"' => return .str (← string '"')
    | some '\'' => return .str (← string '\'')
    | some '[' =>
      let _ ← next
      return .arr (← arrayItems (value depth) ((← get).length + 1))
    | some '\x7b' =>
      let _ ← next
      blanks
      if ← eat '\x7d' then return .table .inline []
      let pairs ← inlinePairs (value depth) (← get).length
      (ofPairs? pairs).elim failure pure
    | _ => bare

/-- How deep values may be nested. -/
def greatestDepth : Nat := 80

/-! ### Documents -/

/-- One definition, up to the end of its line. -/
def line : Reader Line := do
  let read : Reader Line := do
    if ← eatText "[[" then
      let path ← anyKey
      expect "]]"
      return .element path
    else if ← eat '[' then
      let path ← anyKey
      expect "]"
      return .header path
    else
      let (path, v) ← pair (value greatestDepth)
      return .pair path v
  let definition ← read
  lineEnd
  return definition

/-- The lines of a document.  Each takes at least one character. -/
def lines : Nat → Reader (List Line)
  | 0 => failure
  | bound + 1 => do
    spacing (← get).length
    if ← atEnd then return [] else return (← line) :: (← lines bound)

/-- The document of a text; a mark of the byte order at its start is passed over. -/
def parse? (text : String) : Option Toml :=
  let document : Reader (List Line) := do
    let _ ← eat (Char.ofNat 0xFEFF)
    lines ((← get).length + 1)
  (document.run? text).bind ofLines?

end Toml

end DocStore
