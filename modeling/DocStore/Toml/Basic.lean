import DocStore.Assoc

/-!
# TOML documents

A document is a table.  Its lines are put into it one after the other, and a line that would define
something twice is refused: each kind of table says from where it may still be added to.
-/

namespace DocStore

namespace Toml

/-- How a table has come about, which decides what may be added to it. -/
inductive Origin where
  /-- By a header of its own -/
  | header
  /-- By the header of a table below it; a header of its own may follow. -/
  | implied
  /-- By a dotted key; further dotted keys may add to it. -/
  | dotted
  /-- Written as one value, to which nothing is added -/
  | inline
  deriving DecidableEq, Repr, Inhabited

end Toml

inductive Toml where
  | str (value : String)
  | int (value : Int)
  | float (value : Float)
  | bool (value : Bool)
  /-- A date, a time or both -/
  | moment
  | arr (items : List Toml)
  | table (origin : Toml.Origin) (entries : List (String × Toml))
  /-- An array of tables, each element of which has a header -/
  | tables (elements : List (List (String × Toml)))
  deriving Inhabited

namespace Toml

/-- The entries of a table, in order. -/
abbrev Entries := List (String × Toml)

/-- One definition of a document. -/
inductive Line where
  /-- `path = value` -/
  | pair (path : List String) (value : Toml)
  /-- `[path]` -/
  | header (path : List String)
  /-- `[[path]]` -/
  | element (path : List String)
  deriving Inhabited

/-! ### Adding to tables -/

/-- Change the table at a path, making the tables on the way.  With `dotted` the path is that of a
dotted key, which does not lead through tables with a header of their own.  In an array of tables the
way leads through the last element. -/
def updateAt (dotted : Bool) (f : Origin → Entries → Option Entries) :
    List String → Origin → Entries → Option Entries
  | [], origin, entries => f origin entries
  | key :: path, _, entries =>
    match Assoc.get? entries key with
    | none =>
      let origin : Origin := if dotted then .dotted else .implied
      (updateAt dotted f path origin []).map fun inner =>
        Assoc.insert entries key (.table origin inner)
    | some (.table origin inner) =>
      if origin = .inline || (dotted && origin = .header) then none
      else (updateAt dotted f path origin inner).map fun changed =>
        Assoc.insert entries key (.table origin changed)
    | some (.tables elements) =>
      match elements.getLast? with
      | some last => (updateAt dotted f path .header last).map fun changed =>
          Assoc.insert entries key (.tables (elements.dropLast ++ [changed]))
      | none => none
    | some _ => none

/-- Split the last key off a path. -/
def splitLast? (path : List String) : Option (List String × String) :=
  path.getLast?.map fun last => (path.dropLast, last)

/-- Add a value under a dotted key.  The key must be new, and so must be the table it is in, but for
earlier dotted keys. -/
def addPair (path : List String) (value : Toml) (entries : Entries) : Option Entries := do
  let (parents, key) ← splitLast? path
  let add (origin : Origin) (inner : Entries) : Option Entries :=
    if (!parents.isEmpty && origin != .dotted) || Assoc.contains inner key then none
    else some (Assoc.insert inner key value)
  updateAt true add parents .header entries

/-- Give a table its header. -/
def openTable (path : List String) (root : Entries) : Option Entries := do
  let (parents, key) ← splitLast? path
  let add (_ : Origin) (inner : Entries) : Option Entries :=
    match Assoc.get? inner key with
    | none => some (Assoc.insert inner key (.table .header []))
    | some (.table .implied below) => some (Assoc.insert inner key (.table .header below))
    | some _ => none
  updateAt false add parents .header root

/-- Add an element to an array of tables. -/
def openElement (path : List String) (root : Entries) : Option Entries := do
  let (parents, key) ← splitLast? path
  let add (_ : Origin) (inner : Entries) : Option Entries :=
    match Assoc.get? inner key with
    | none => some (Assoc.insert inner key (.tables [[]]))
    | some (.tables elements) => some (Assoc.insert inner key (.tables (elements ++ [[]])))
    | some _ => none
  updateAt false add parents .header root

/-- A table under construction, and the path of the table that pairs are added to. -/
abbrev Draft := Entries × List String

/-- Add a line to a table. -/
def addLine (draft : Draft) : Line → Option Draft
  | .pair path value =>
    (updateAt false (fun _ entries => addPair path value entries) draft.2 .header draft.1).map
      fun root => (root, draft.2)
  | .header path => (openTable path draft.1).map fun root => (root, path)
  | .element path => (openElement path draft.1).map fun root => (root, path)

/-- The document of some lines. -/
def ofLines? (lines : List Line) : Option Toml :=
  (lines.foldlM addLine ([], [])).map fun draft => .table .header draft.1

/-- The inline table of some pairs. -/
def ofPairs? (pairs : List (List String × Toml)) : Option Toml :=
  (pairs.foldlM (fun entries pair => addPair pair.1 pair.2 entries) []).map (.table .inline)

end Toml

end DocStore
