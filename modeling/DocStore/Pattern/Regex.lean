import DocStore.Text.Blank
import DocStore.Text.Word

/-!
# Regular expressions

A regular expression is a tree over sets of characters and places between characters.  A match is
searched for anywhere in a text.  Matching follows all possibilities at once: from the set of places
a match of a part may start at to the set of those it may end at, each place at most once.
-/

namespace DocStore

/-! ### Sets of characters -/

/-- A set of characters. -/
inductive CharSet where
  | empty
  | any
  | range (first last : Char)
  /-- Decimal digits: `\d` -/
  | digit
  /-- Blank characters: `\s` -/
  | blank
  /-- Characters of words: `\w` -/
  | word
  | not (s : CharSet)
  | union (s t : CharSet)
  | inter (s t : CharSet)
  /-- All that differ in case alone from a member. -/
  | folded (s : CharSet)
  deriving Inhabited

namespace CharSet

def single (c : Char) : CharSet := .range c c

def ofRanges (ranges : List (Char × Char)) : CharSet :=
  ranges.foldl (fun s r => s.union (.range r.1 r.2)) .empty

def diff (s t : CharSet) : CharSet := s.inter t.not

def symmDiff (s t : CharSet) : CharSet := (s.diff t).union (t.diff s)

def contains : CharSet → Char → Bool
  | .empty, _ => false
  | .any, _ => true
  | .range first last, c => first ≤ c && c ≤ last
  | .digit, c => Text.isDigit c
  | .blank, c => Text.isBlank c
  | .word, c => Text.isWord c
  | .not s, c => !s.contains c
  | .union s t, c => s.contains c || t.contains c
  | .inter s t, c => s.contains c && t.contains c
  | .folded s, c => (Text.caseVariants c).any s.contains

end CharSet

/-! ### Places -/

/-- A place in a text: how many characters are before it, the last of them, and those after it. -/
structure Place where
  index : Nat
  before : Option Char
  rest : List Char
  deriving Inhabited

namespace Place

def start (text : List Char) : Place := ⟨0, none, text⟩

/-- The place after the next character, if that is in the set. -/
def pass? (s : CharSet) (p : Place) : Option Place :=
  match p.rest with
  | c :: rest => if s.contains c then some ⟨p.index + 1, some c, rest⟩ else none
  | [] => none

/-- All places of the text from `p` on. -/
def onward (p : Place) : List Place :=
  go p.index p.before p.rest
where
  go (index : Nat) (before : Option Char) : List Char → List Place
    | [] => [⟨index, before, []⟩]
    | c :: rest => ⟨index, before, c :: rest⟩ :: go (index + 1) (some c) rest

def memOf (places : List Place) (p : Place) : Bool := places.any (·.index == p.index)

/-- The places of `more` that are not among `places`. -/
def newIn (places more : List Place) : List Place :=
  more.foldl (fun new p => if memOf places p || memOf new p then new else new ++ [p]) []

def merge (a b : List Place) : List Place := a ++ newIn a b

end Place

/-- A condition on a place. -/
inductive Anchor where
  | textStart | textEnd
  | lineStart | lineEnd
  | wordEdge | notWordEdge
  deriving DecidableEq, Repr, Inhabited

namespace Anchor

def isWordChar : Option Char → Bool
  | some c => Text.isWord c
  | none => false

def holds (a : Anchor) (p : Place) : Bool :=
  match a with
  | .textStart => p.before.isNone
  | .textEnd => p.rest.isEmpty
  | .lineStart => p.before.isNone || p.before == some '\n'
  | .lineEnd => p.rest.isEmpty || p.rest.head? == some '\n'
  | .wordEdge => isWordChar p.before != isWordChar p.rest.head?
  | .notWordEdge => isWordChar p.before == isWordChar p.rest.head?

end Anchor

/-! ### Expressions -/

inductive Regex where
  /-- Matches the empty text. -/
  | empty
  /-- One character of a set. -/
  | set (s : CharSet)
  | anchor (a : Anchor)
  | seq (r s : Regex)
  | alt (r s : Regex)
  /-- At least `low` matches in a row, and at most `high` if there is a bound. -/
  | repeated (r : Regex) (low : Nat) (high : Option Nat)
  deriving Inhabited

namespace Regex

/-- Take `count` steps, or fewer once no place is left. -/
def iterate (step : List Place → List Place) : Nat → List Place → List Place
  | 0, places => places
  | count + 1, places => if places.isEmpty then [] else iterate step count (step places)

/-- The places that up to `count` further steps reach, where `frontier` are those reached last. -/
def reach (step : List Place → List Place) : Nat → List Place → List Place → List Place
  | 0, _, reached => reached
  | count + 1, frontier, reached =>
    if frontier.isEmpty then reached
    else
      let new := Place.newIn reached (step frontier)
      reach step count new (reached ++ new)

/-- The number of places from the first of `places` on: no repetition needs more rounds. -/
def placeCount (places : List Place) : Nat :=
  (places.map fun p => p.rest.length + 1).foldl max 0

/-- Where matches end that start at `places`. -/
def ends : Regex → List Place → List Place
  | .empty, places => places
  | .set s, places => places.filterMap (Place.pass? s)
  | .anchor a, places => places.filter a.holds
  | .seq r s, places => ends s (ends r places)
  | .alt r s, places => Place.merge (ends r places) (ends s places)
  | .repeated r low high, places =>
    let first := iterate (ends r) low places
    let further := match high with
      | some high => min (high - low) (placeCount first)
      | none => placeCount first
    reach (ends r) further first first

/-- Whether a match starts anywhere in the text. -/
def isMatch (r : Regex) (text : String) : Bool :=
  !(r.ends (Place.start text.toList).onward).isEmpty

end Regex

end DocStore
