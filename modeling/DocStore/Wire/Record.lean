import DocStore.Json.Basic
import DocStore.Assoc

/-!
# Records on the wire

Messages are JSON trees.  A record is an object of named fields, in which unknown names are passed
over; the plain list of its fields in their order is read as well.  A record of several shapes names
its shape in a field of its own, the tag, which stands first in a list.
-/

namespace DocStore.Wire

/-- The fields of a record, by name or by position. -/
inductive Record where
  | named (members : List (String × Json))
  | listed (items : List Json)

namespace Record

/-- The record of a tree. -/
def ofJson? : Json → Option Record
  | .obj members => some (.named members)
  | .arr items => some (.listed items)
  | _ => none

/-- A record with a tag: the tag, and the other fields. -/
def ofTagged? (tag : String) : Json → Option (String × Record)
  | .obj members =>
    match Assoc.get? members tag with
    | some (.str shape) => some (shape, .named members)
    | _ => none
  | .arr (.str shape :: items) => some (shape, .listed items)
  | _ => none

/-- A record has this many fields; a list may not be longer. -/
def fits (record : Record) (count : Nat) : Bool :=
  match record with
  | .named _ => true
  | .listed items => items.length ≤ count

/-- The field of a name and position. -/
def field? (record : Record) (position : Nat) (name : String) : Option Json :=
  match record with
  | .named members => Assoc.get? members name
  | .listed items => items[position]?

/-- A field that may be left out of an object, and is null then. -/
def nullable? (record : Record) (position : Nat) (name : String) : Option Json :=
  match record with
  | .named members => some ((Assoc.get? members name).getD .null)
  | .listed items => items[position]?

end Record

/-! ### Scalars and lists -/

def text? : Json → Option String
  | .str s => some s
  | _ => none

def flag? : Json → Option Bool
  | .bool b => some b
  | _ => none

/-- An integer from `low` up to `high`. -/
def integer? (low high : Int) : Json → Option Int
  | .int n => if low ≤ n ∧ n ≤ high then some n else none
  | _ => none

def uint32? (json : Json) : Option UInt32 :=
  (integer? 0 (UInt32.size - 1) json).map fun n => UInt32.ofNat n.toNat

def uint64? (json : Json) : Option UInt64 :=
  (integer? 0 (UInt64.size - 1) json).map fun n => UInt64.ofNat n.toNat

def int64? (json : Json) : Option Int64 :=
  (integer? Int64.minValue.toInt Int64.maxValue.toInt json).map Int64.ofInt

/-- Null is nothing; anything else is read by `read`. -/
def optional? {α : Type} (read : Json → Option α) : Json → Option (Option α)
  | .null => some none
  | json => (read json).map some

def list? {α : Type} (read : Json → Option α) : Json → Option (List α)
  | .arr items => items.mapM read
  | _ => none

/-- A pair is a list of two. -/
def pair? {α β : Type} (first : Json → Option α) (second : Json → Option β) :
    Json → Option (α × β)
  | .arr [a, b] => do return (← first a, ← second b)
  | _ => none

/-- The tree of what may be missing. -/
def ofOption {α : Type} (write : α → Json) : Option α → Json
  | none => .null
  | some a => write a

/-- A record of the shape `shape`, its tag first. -/
def tagged (tag shape : String) (fields : List (String × Json)) : Json :=
  .obj ((tag, .str shape) :: fields)

end DocStore.Wire
