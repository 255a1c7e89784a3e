/-!
# Readers

A reader is a step that takes characters off the front of a text, or refuses it without a reason.
Readers of the formats in which a text is right or wrong, and nothing else is asked, are made of
these.
-/

namespace DocStore.Text

/-- A step that takes characters off the front of the text, or refuses it. -/
abbrev Reader := StateT (List Char) Option

/-- The value of a hexadecimal digit, in either case. -/
def hexValue? (c : Char) : Option Nat :=
  if c.isDigit then some (c.toNat - '0'.toNat)
  else if 'a' ≤ c ∧ c ≤ 'f' then some (c.toNat - 'a'.toNat + 10)
  else if 'A' ≤ c ∧ c ≤ 'F' then some (c.toNat - 'A'.toNat + 10)
  else none

namespace Reader

/-- The next character, left where it is. -/
def peek? : Reader (Option Char) := do return (← get).head?

/-- Take the next character. -/
def next : Reader Char := do
  match ← get with
  | c :: cs => set cs; return c
  | [] => failure

/-- Take the next character, which must be of a class. -/
def nextOf (p : Char → Bool) : Reader Char := do
  let c ← next
  if p c then return c else failure

/-- Take the characters of `text`. -/
def expect (text : String) : Reader Unit :=
  text.toList.forM fun c => do if (← next) = c then return () else failure

/-- Take the longest run of characters of a class. -/
def takeWhile (p : Char → Bool) : Reader (List Char) := do
  let cs ← get
  set (cs.dropWhile p)
  return cs.takeWhile p

/-- Take `c` if it is next. -/
def eat (c : Char) : Reader Bool := do
  if (← peek?) = some c then
    let _ ← next
    return true
  else return false

/-- Take the characters of `text` if they are next. -/
def eatText (text : String) : Reader Bool := do
  let cs ← get
  if text.toList.isPrefixOf cs then
    set (cs.drop text.toList.length)
    return true
  else return false

/-- Whether the text has been taken whole. -/
def atEnd : Reader Bool := do return (← get).isEmpty

/-- The result of a reader that takes a whole text. -/
def run? {α : Type} (reader : Reader α) (text : String) : Option α :=
  match reader text.toList with
  | some (a, []) => some a
  | _ => none

end Reader

end DocStore.Text
