import DocStore.Decimal.Numeral
import DocStore.Error
import DocStore.Pattern.Regex
import DocStore.Text.Reader

/-!
# Reading regular expressions

`Regex.parse?` reads the text of a regular expression.  Known are literals and escapes, `.`, bracketed
classes with ranges, named classes and set operators, the classes `\d`, `\s` and `\w`, the anchors
`^`, `$`, `\A`, `\z`, `\b` and `\B`, groups, alternation, repetition, and the flags `i`, `m`, `s`, `x`,
`u` and `U`.  What a group captures and how greedy a repetition is make no difference to whether there
is a match.  References back to a group and conditions on what surrounds a match are refused.
-/

namespace DocStore.Regex

/-- The flags in force at a place of an expression. -/
structure Flags where
  /-- Letters match in either case: `i` -/
  caseless : Bool := false
  /-- `^` and `$` match at line breaks: `m` -/
  multiline : Bool := false
  /-- `.` matches a line break: `s` -/
  dotAll : Bool := false
  /-- Blanks and comments in the expression are passed over: `x` -/
  spaced : Bool := false
  deriving Inhabited

/-- What is left of the text, and the flags in force. -/
structure State where
  rest : List Char
  flags : Flags := {}

abbrev Reader := StateT State Option

namespace Reader

def peek? : Reader (Option Char) := do return (← get).rest.head?

/-- The character after the next one. -/
def peekSecond? : Reader (Option Char) := do return (← get).rest[1]?

def next : Reader Char := do
  match (← get).rest with
  | c :: rest =>
    modify fun s => { s with rest }
    return c
  | [] => failure

def drop (count : Nat) : Reader Unit := modify fun s => { s with rest := s.rest.drop count }

def eat (c : Char) : Reader Bool := do
  if (← peek?) = some c then
    drop 1
    return true
  else return false

/-- Pass over the text if it stands next. -/
def eatText (text : String) : Reader Bool := do
  if text.toList.isPrefixOf (← get).rest then
    drop text.length
    return true
  else return false

def expect (c : Char) : Reader Unit := do
  if ← eat c then return () else failure

def takeWhile (p : Char → Bool) : Reader (List Char) := do
  let rest := (← get).rest
  modify fun s => { s with rest := rest.dropWhile p }
  return rest.takeWhile p

/-- The rest of a text in which blanks and comments count for nothing. -/
def skipComments : Nat → List Char → List Char
  | 0, cs => cs
  | bound + 1, cs =>
    match cs.dropWhile Text.isBlank with
    | '#' :: rest => skipComments bound (rest.dropWhile (· != '\n'))
    | rest => rest

/-- Pass over blanks and comments where the flags say so. -/
def skipSpace : Reader Unit :=
  modify fun s =>
    if s.flags.spaced then { s with rest := skipComments s.rest.length s.rest } else s

def remaining : Reader Nat := do return (← get).rest.length

/-! ### Characters and classes -/

/-- The characters with a meaning of their own; a backslash makes them literal. -/
def metaChars : List Char :=
  ['\\', '.', '+', '*', '?', '(', ')', '|', '[', ']', '\x7b', '\x7d', '^', '$', '#', '&', '-', '~']

/-- Whether a backslash before `c` gives `c` itself. -/
def isEscapable (c : Char) : Bool :=
  metaChars.contains c || (c.toNat < 0x80 && !c.isAlphanum && c != '<' && c != '>')

/-- What a single item stands for. -/
inductive Item where
  | char (c : Char)
  | charSet (s : CharSet)
  | anchor (a : Anchor)

/-- The character of a code point in hexadecimal digits. -/
def codePoint (digits : List Char) : Reader Char := do
  let values ← digits.mapM fun c => (Text.hexValue? c).elim failure pure
  let code := values.foldl (fun n d => 16 * n + d) 0
  if digits.isEmpty then failure
  if h : code.isValidChar then return Char.ofNatAux code h else failure

/-- A code point of so many digits, or of any number of them in braces. -/
def hexEscape (count : Nat) : Reader Char := do
  if ← eat '\x7b' then
    let digits ← takeWhile (· != '\x7d')
    expect '\x7d'
    codePoint digits
  else
    let digits := (← get).rest.take count
    if digits.length < count then failure
    drop count
    codePoint digits

/-- What an escape stands for, its backslash being taken. -/
def escape : Reader Item := do
  let c ← next
  match c with
  | 'd' => return .charSet .digit
  | 'D' => return .charSet (.not .digit)
  | 's' => return .charSet .blank
  | 'S' => return .charSet (.not .blank)
  | 'w' => return .charSet .word
  | 'W' => return .charSet (.not .word)
  | 'n' => return .char '\n'
  | 't' => return .char '\t'
  | 'r' => return .char '\r'
  | 'a' => return .char (Char.ofNat 0x07)
  | 'f' => return .char (Char.ofNat 0x0C)
  | 'v' => return .char (Char.ofNat 0x0B)
  | 'A' => return .anchor .textStart
  | 'z' => return .anchor .textEnd
  | 'b' => return .anchor .wordEdge
  | 'B' => return .anchor .notWordEdge
  | 'x' => return .char (← hexEscape 2)
  | 'u' => return .char (← hexEscape 4)
  | 'U' => return .char (← hexEscape 8)
  | c => if isEscapable c then return .char c else failure

/-- The classes that are named inside brackets, as in `[[:alpha:]]`. -/
def namedClasses : List (String × CharSet) :=
  let lower := ('a', 'z')
  let upper := ('A', 'Z')
  let digit := ('0', '9')
  [("alnum", .ofRanges [lower, upper, digit]), ("alpha", .ofRanges [lower, upper]),
    ("ascii", .range (Char.ofNat 0) (Char.ofNat 0x7F)), ("blank", .ofRanges [('\t', '\t'), (' ', ' ')]),
    ("cntrl", .ofRanges [(Char.ofNat 0, Char.ofNat 0x1F), (Char.ofNat 0x7F, Char.ofNat 0x7F)]),
    ("digit", .ofRanges [digit]), ("graph", .range '!' '~'), ("lower", .ofRanges [lower]),
    ("print", .range ' ' '~'),
    ("punct", .ofRanges [('!', '/'), (':', '@'), ('[', Char.ofNat 0x60), ('\x7b', '~')]),
    ("space", .ofRanges [('\t', '\r'), (' ', ' ')]), ("upper", .ofRanges [upper]),
    ("word", .ofRanges [lower, upper, digit, ('_', '_')]),
    ("xdigit", .ofRanges [digit, ('a', 'f'), ('A', 'F')])]

/-- A named class, if one stands next; otherwise nothing is taken. -/
def namedClass? : Reader (Option CharSet) := do
  let rest := (← get).rest
  if !"[:".toList.isPrefixOf rest then return none
  let inner := rest.drop 2
  let negated := inner.head? == some '^'
  let inner := if negated then inner.drop 1 else inner
  let name := inner.takeWhile (· != ':')
  let tail := inner.drop name.length
  match namedClasses.lookup (String.ofList name) with
  | some s =>
    if ":]".toList.isPrefixOf tail then
      modify fun st => { st with rest := tail.drop 2 }
      return some (if negated then s.not else s)
    else return none
  | none => return none

/-- A set up to case, if the flags say so. -/
def fold (s : CharSet) : Reader CharSet := do
  return if (← get).flags.caseless then .folded s else s

/-- A single item of a class. -/
def classItem : Reader Item := do
  let c ← next
  if c = '\\' then escape else return .char c

/-- An item of a class, or a range. -/
def classRange : Reader CharSet := do
  let first ← classItem
  skipSpace
  let ends := (← peek?) != some '-' || (← peekSecond?) == some ']' || (← peekSecond?) == some '-'
  if ends then
    match first with
    | .char c => return .single c
    | .charSet s => return s
    | .anchor _ => failure
  else
    expect '-'
    skipSpace
    match first, ← classItem with
    | .char low, .char high => if low ≤ high then return .range low high else failure
    | _, _ => failure

/-- The operators between sets. -/
inductive SetOp where
  | inter | diff | symmDiff

def SetOp.apply : SetOp → CharSet → CharSet → CharSet
  | .inter, s, t => s.inter t
  | .diff, s, t => s.diff t
  | .symmDiff, s, t => s.symmDiff t

/-- An operator between sets, if one stands next. -/
def setOp? : Reader (Option SetOp) := do
  if ← eatText "&&" then return some .inter
  if ← eatText "--" then return some .diff
  if ← eatText "~~" then return some .symmDiff
  return none

/-- What has been read of a class before its last operator. -/
abbrev Pending := Option (CharSet × SetOp)

/-- Apply the last operator to what stands after it. -/
def finish (pending : Pending) (current : CharSet) : Reader CharSet := do
  match pending with
  | none => return current
  | some (s, op) => return op.apply (← fold s) (← fold current)

/-- The items of a class up to its closing bracket; `nested` reads a class inside it. -/
def classItems (nested : Reader CharSet) : Nat → Pending → CharSet → Reader CharSet
  | 0, _, _ => failure
  | bound + 1, pending, current => do
    skipSpace
    if ← eat ']' then finish pending current
    else
      match ← setOp? with
      | some op => classItems nested bound (some (← finish pending current, op)) .empty
      | none =>
        let item ← match ← namedClass? with
          | some s => pure s
          | none => if ← eat '[' then nested else classRange
        classItems nested bound pending (current.union item)

/-- The literals that a class may open with: hyphens, or else a closing bracket. -/
def openingLiterals : Reader CharSet := do
  skipSpace
  let hyphens ← takeWhile (· == '-')
  if !hyphens.isEmpty then return .single '-'
  if ← eat ']' then return .single ']'
  return .empty

/-- A class, its opening bracket being taken.  Classes nest at most `depth` deep. -/
def classBody : Nat → Reader CharSet
  | 0 => failure
  | depth + 1 => do
    skipSpace
    let negated ← eat '^'
    let opening ← openingLiterals
    let s ← fold (← classItems (classBody depth) ((← remaining) + 1) none opening)
    return if negated then s.not else s

/-! ### Groups and repetition -/

/-- Set the flag of a letter. -/
def setFlag (flags : Flags) (c : Char) (on : Bool) : Option Flags :=
  match c with
  | 'i' => some { flags with caseless := on }
  | 'm' => some { flags with multiline := on }
  | 's' => some { flags with dotAll := on }
  | 'x' => some { flags with spaced := on }
  | 'u' | 'U' => some flags
  | _ => none

/-- The flags of a list of letters; those after a hyphen are switched off.  A letter may not recur,
and a hyphen needs a letter after it. -/
def applyFlags : Flags → Bool → List Char → List Char → Option Flags
  | flags, _, _, [] => some flags
  | flags, on, seen, c :: rest => do
    if c = '-' then
      guard (on && !rest.isEmpty)
      applyFlags flags false seen rest
    else
      guard (!seen.contains c)
      applyFlags (← setFlag flags c on) on (c :: seen) rest

def isNameStart (c : Char) : Bool := c = '_' || c.isAlpha

def isNameChar (c : Char) : Bool := c.isAlphanum || c = '_' || c = '.' || c = '[' || c = ']'

/-- The name of a group, up to the closing angle. -/
def groupName : Reader Unit := do
  let name ← takeWhile isNameChar
  match name with
  | c :: _ => if isNameStart c then expect '>' else failure
  | [] => failure

/-- A part that may be repeated, or the setting of flags, which may not. -/
inductive Part where
  | expr (r : Regex)
  | flags

/-- A group, its opening parenthesis being taken.  Flags set inside it end with it. -/
def group (alternation : Reader Regex) : Reader Part := do
  let flags := (← get).flags
  let inside : Reader Part := do
    let r ← alternation
    expect ')'
    modify fun s => { s with flags }
    return .expr r
  skipSpace
  if !(← eat '?') then inside
  else if ← eatText "P<" then
    groupName
    inside
  else if ← eat '<' then
    groupName
    inside
  else
    let letters ← takeWhile fun c => c.isAlpha || c = '-'
    let changed ← (applyFlags flags true [] letters).elim failure pure
    if ← eat ':' then
      modify fun s => { s with flags := changed }
      inside
    else
      expect ')'
      if letters.isEmpty then failure
      modify fun s => { s with flags := changed }
      return .flags

/-- The greatest number in a repetition. -/
def greatestCount : Nat := UInt32.size

/-- A number of a repetition, with blanks around it. -/
def count : Reader Nat := do
  let _ ← takeWhile Text.isBlank
  let digits ← takeWhile Char.isDigit
  let _ ← takeWhile Text.isBlank
  match Decimal.naturalBelow? greatestCount digits with
  | some n => return n
  | none => failure

/-- The bounds in the braces of a repetition, the opening one being taken. -/
def bounds : Reader (Nat × Option Nat) := do
  let low ← count
  let high ← if ← eat ',' then
      if (← peek?) = some '\x7d' then pure none else some <$> count
    else pure (some low)
  expect '\x7d'
  match high with
  | some h => if h < low then failure else return (low, some h)
  | none => return (low, none)

/-- The bounds of the repetition that stands next, if one does. -/
def repetition? : Reader (Option (Nat × Option Nat)) := do
  if ← eat '*' then return some (0, none)
  if ← eat '+' then return some (1, none)
  if ← eat '?' then return some (0, some 1)
  if ← eat '\x7b' then return some (← bounds)
  return none

/-- A part and all repetitions after it. -/
def repeats : Nat → Regex → Reader Regex
  | 0, r => return r
  | bound + 1, r => do
    skipSpace
    match ← repetition? with
    | some (low, high) =>
      let _ ← eat '?'
      repeats bound (.repeated r low high)
    | none => return r

/-! ### Expressions -/

def anchorAt (text line : Anchor) : Reader Part := do
  return .expr (.anchor (if (← get).flags.multiline then line else text))

/-- A part that starts with `c`. -/
def part (alternation : Reader Regex) (c : Char) : Reader Part := do
  let ofSet (s : CharSet) : Reader Part := do return .expr (.set (← fold s))
  match c with
  | '(' => group alternation
  | '[' => return .expr (.set (← classBody ((← remaining) + 1)))
  | '.' =>
    return .expr (.set (if (← get).flags.dotAll then .any else .not (.single '\n')))
  | '^' => anchorAt .textStart .lineStart
  | '$' => anchorAt .textEnd .lineEnd
  | '\\' =>
    match ← escape with
    | .char c => ofSet (.single c)
    | .charSet s => ofSet s
    | .anchor a => return .expr (.anchor a)
  | '*' | '+' | '?' | '\x7b' | ')' => failure
  | c => ofSet (.single c)

/-- Parts in a row, up to a bar, a closing parenthesis or the end. -/
def sequence (alternation : Reader Regex) : Nat → Regex → Reader Regex
  | 0, r => return r
  | bound + 1, r => do
    skipSpace
    match ← peek? with
    | none | some '|' | some ')' => return r
    | some c =>
      drop 1
      match ← part alternation c with
      | .expr p => sequence alternation bound (.seq r (← repeats (← remaining) p))
      | .flags =>
        skipSpace
        if (← repetition?).isSome then failure
        sequence alternation bound r

/-- Sequences with bars between them. -/
def alternatives (alternation : Reader Regex) : Nat → Reader Regex
  | 0 => failure
  | bound + 1 => do
    let first ← sequence alternation (← remaining) .empty
    if ← eat '|' then return .alt first (← alternatives alternation bound)
    else return first

/-- An expression in which groups nest at most `depth` deep. -/
def alternation : Nat → Reader Regex
  | 0 => failure
  | depth + 1 => do alternatives (alternation depth) ((← remaining) + 1)

end Reader

/-- The number of parts once every repetition is written out. -/
def size : Regex → Nat
  | .empty | .set _ | .anchor _ => 1
  | .seq r s | .alt r s => size r + size s
  | .repeated r low high => 1 + size r * max 1 (high.getD low)

/-- The number of parts beyond which an expression is too large to be matched. -/
def greatestSize : Nat := 300000

/-- The regular expression of a text, if it is one. -/
def parse? (text : String) : Option Regex :=
  let cs := text.toList
  match (Reader.alternation (cs.length + 1)).run ⟨cs, {}⟩ with
  | some (r, s) => if s.rest.isEmpty && r.size ≤ greatestSize then some r else none
  | none => none

/-- What the server says of a text that is no regular expression. -/
def invalid : DocError :=
  .server ServerCode.invalidRegexp "Illegal argument to a regular expression: regex parse error:"

/-- The regular expression of a text, or the server's error. -/
def compile (text : String) : Except DocError Regex :=
  match parse? text with
  | some r => .ok r
  | none => .error invalid

/-- The text that matches a character and nothing else. -/
def escaped (c : Char) : List Char := if Reader.metaChars.contains c then ['\\', c] else [c]

end DocStore.Regex
