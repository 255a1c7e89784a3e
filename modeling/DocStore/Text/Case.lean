import DocStore.Text.CaseTable

/-!
# Upper and lower case

`Text.upper` and `Text.lower` map whole texts by the full case mappings of the Unicode standard: one
character may become several, and a capital sigma is written as a final one at the end of a word.
-/

namespace DocStore.Text

/-- A run of characters mapped by the same distance: its first and last character, the step from
one to the next, and the distance. -/
def runTarget? (code : Nat) (run : Nat × Nat × Nat × Int) : Option Nat :=
  let (first, last, step, distance) := run
  if first ≤ code ∧ code ≤ last ∧ (code - first) % step = 0 then some (code + distance).toNat
  else none

/-- The image of a character under a case mapping, itself where the mapping says nothing. -/
def mapChar (runs : List (Nat × Nat × Nat × Int)) (sequences : List (Nat × List Nat)) (c : Char) :
    List Char :=
  match sequences.lookup c.toNat with
  | some codes => codes.map Char.ofNat
  | none =>
    match runs.findSome? (runTarget? c.toNat) with
    | some code => [Char.ofNat code]
    | none => [c]

def upperChar (c : Char) : List Char :=
  if c.toNat < 0x80 then [c.toUpper]
  else mapChar CaseTable.upperRuns CaseTable.upperSequences c

def lowerChar (c : Char) : List Char :=
  if c.toNat < 0x80 then [c.toLower]
  else mapChar CaseTable.lowerRuns CaseTable.lowerSequences c

def inRanges (ranges : List (Nat × Nat)) (c : Char) : Bool :=
  ranges.any fun r => r.1 ≤ c.toNat && c.toNat ≤ r.2

def isIgnorable (c : Char) : Bool := inRanges CaseTable.ignorableRanges c

def isCased (c : Char) : Bool := inRanges CaseTable.casedRanges c

/-- Whether the nearest character that counts is cased. -/
def startsCased (cs : List Char) : Bool :=
  match cs.dropWhile isIgnorable with
  | c :: _ => isCased c
  | [] => false

def capitalSigma : Char := Char.ofNat 0x3A3

def smallSigma : Char := Char.ofNat 0x3C3

def finalSigma : Char := Char.ofNat 0x3C2

/-- The lower case of what follows `before`, which is given nearest first.  A capital sigma ends a
word if a cased character stands before it and none after it. -/
def lowerFrom (before : List Char) : List Char → List Char
  | [] => []
  | c :: rest =>
    let image :=
      if c = capitalSigma then
        [if startsCased before && !startsCased rest then finalSigma else smallSigma]
      else lowerChar c
    image ++ lowerFrom (c :: before) rest

/-- The character that a mapping to single characters sends `c` to. -/
def runImage (runs : List (Nat × Nat × Nat × Int)) (c : Char) : Char :=
  match runs.findSome? (runTarget? c.toNat) with
  | some code => Char.ofNat code
  | none => c

/-- The dotless i has an upper case of its own spelling but differs from it in more than case. -/
def dotlessI : Char := Char.ofNat 0x131

/-- The characters that differ from `c` in case alone, `c` among them. -/
def caseVariants (c : Char) : List Char :=
  match CaseTable.caseGroups.find? (·.contains c.toNat) with
  | some group => group.map Char.ofNat
  | none =>
    if c = dotlessI then [c]
    else [c, runImage CaseTable.upperRuns c, runImage CaseTable.lowerRuns c]

def upper (s : String) : String := String.ofList (s.toList.flatMap upperChar)

def lower (s : String) : String := String.ofList (lowerFrom [] s.toList)

end DocStore.Text
