import DocStore.Expr.Printer
import DocStore.Proofs.Expr.Lexing
import DocStore.Proofs.Expr.Tree

/-!
# Trees that canonical text can express

Not every tree can be told from its text: a floating-point literal, a bracketed list with a field in
it, or the negation of a positive number reads back as something else or as nothing.  A tree is
`Printable` if none of this occurs at any of its nodes, and `Numbered` if its placeholders carry the
places that reading them in order gives.
-/

namespace DocStore

/-- The name of a member has no backslash, which would be read as an escape. -/
def Segment.Printable : Segment → Prop
  | .member name => '\\' ∉ name.toList
  | _ => True

structure Path.Printable (path : Path) : Prop where
  segments : ∀ segment ∈ path.segments, segment.Printable
  closed : path.segments.getLast? ≠ some .doubleWildcard

/-- Null, a truth value, an integer in its canonical form or a string without unusual escapes. -/
def Value.Printable : Value → Prop
  | .null | .bool _ | .int _ => True
  | .uint n => Int64.maxValue.toInt < n.toNat
  | .str s => Quoted.HasPlainEscapes s
  | _ => False

/-- The parts of a function's name are identifiers and not keywords. -/
structure FunctionName.Printable (f : FunctionName) : Prop where
  name : Segment.isPlainName f.name = true ∧ isKeyword f.name = false
  schema : ∀ schema ∈ f.schema, Segment.isPlainName schema = true ∧ isKeyword schema = false

/-- An identifier in lower case, which may be a keyword, or digits. -/
def PlaceholderName (name : String) : Prop :=
  (Segment.isPlainName name = true ∧ ∀ c ∈ name.toList, c.isUpper = false)
    ∨ (name.toList ≠ [] ∧ ∀ c ∈ name.toList, c.isDigit = true)

namespace Expr

/-! ## Printable trees -/

/-- A number literal that is written without a sign. -/
def isUnsigned : Expr → Bool
  | .literal (.int i) => 0 ≤ i.toInt
  | .literal (.uint _) => true
  | _ => false

/-- Whether the text stands in parentheses or brackets. -/
def isGrouped : Expr → Bool
  | .binary .. | .isIn .. | .overlaps .. | .like .. | .between .. | .isValue .. | .regexp ..
  | .array _ => true
  | _ => false

theorem allLiteral_iff {es : List Expr} : allLiteral es = true ↔ ∀ e ∈ es, e.isLiteral = true := by
  induction es with
  | nil => exact iff_of_true rfl nofun
  | cons e rest ih => rw [allLiteral, Bool.and_eq_true, ih, List.forall_mem_cons]

/-- What is in a list, if the expression is one, are literals. -/
def holdsLiterals : Expr → Bool
  | .array items => allLiteral items
  | _ => true

mutual

/-- The conditions on a tree under which its text is read as the tree. -/
def Printable : Expr → Prop
  | .literal value => value.Printable
  | .field path => path.Printable
  | .placeholder name _ => PlaceholderName name
  | .unary op operand => operand.Printable ∧ (op = .neg → operand.isUnsigned = false)
  | .binary _ left right => left.Printable ∧ right.Printable
  | .call name args => name.Printable ∧ (args = [.star] ∨ AllPrintable args)
  | .star => False
  | .isIn target list _ form => target.Printable ∧ AllPrintable list ∧
    match form with
    | .paren => True
    | .bracket => allLiteral list = true
    | .container => ∃ operand, list = [operand] ∧ operand.isGrouped = false
  | .overlaps left right _ => left.Printable ∧ right.Printable
    ∧ left.holdsLiterals = true ∧ right.holdsLiterals = true
  | .like target pattern escape _ => target.Printable ∧ pattern.Printable ∧ OptionPrintable escape
  | .between target low high _ => target.Printable ∧ low.Printable ∧ high.Printable
  | .isValue target value _ => target.Printable ∧ value.Printable
  | .regexp target pattern _ => target.Printable ∧ pattern.Printable
  | .array items => AllPrintable items
  | .object fields => FieldsPrintable fields

def AllPrintable : List Expr → Prop
  | [] => True
  | e :: rest => e.Printable ∧ AllPrintable rest

def OptionPrintable : Option Expr → Prop
  | none => True
  | some e => e.Printable

def FieldsPrintable : List (String × Expr) → Prop
  | [] => True
  | (key, e) :: rest => Quoted.HasPlainEscapes key ∧ e.Printable ∧ FieldsPrintable rest

end

theorem allPrintable_iff {es : List Expr} : AllPrintable es ↔ ∀ e ∈ es, e.Printable := by
  induction es with
  | nil => exact iff_of_true trivial nofun
  | cons e rest ih => rw [AllPrintable, ih, List.forall_mem_cons]

theorem fieldsPrintable_iff {fields : List (String × Expr)} :
    FieldsPrintable fields
      ↔ ∀ field ∈ fields, Quoted.HasPlainEscapes field.1 ∧ field.2.Printable := by
  induction fields with
  | nil => exact iff_of_true trivial nofun
  | cons field rest ih => rw [FieldsPrintable, ih, List.forall_mem_cons, and_assoc]

/-- The placeholders carry the places of their names in the order of first appearance. -/
def Numbered (e : Expr) : Prop :=
  ∀ name position, .placeholder name position ∈ e.nodes →
    position = UInt32.ofNat (e.placeholderNames.idxOf name)

end Expr

end DocStore
