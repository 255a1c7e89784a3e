import DocStore.Expr.Basic
import DocStore.Value.Json
import DocStore.Wire.Record

/-!
# Expressions on the wire

Each node is a record tagged with its kind.  `Expr.toJson` writes a tree and `Expr.ofJson?` reads
one back; the same pair stands for paths.
-/

namespace DocStore

open Wire

/-! ### Paths -/

def Segment.toJson : Segment → Json
  | .member name => tagged "type" "member" [("value", .str name)]
  | .memberWildcard => tagged "type" "member_wildcard" []
  | .index n => tagged "type" "index" [("value", .int n.toNat)]
  | .indexWildcard => tagged "type" "index_wildcard" []
  | .doubleWildcard => tagged "type" "double_wildcard" []

/-- A segment without a value may show one that is null. -/
def Segment.ofJson? (json : Json) : Option Segment := do
  let (shape, record) ← Record.ofTagged? "type" json
  guard (record.fits 1)
  let value? := record.field? 0 "value"
  let alone (segment : Segment) : Option Segment :=
    match value? with
    | none | some .null => some segment
    | _ => none
  match shape with
  | "member" => return .member (← text? (← value?))
  | "member_wildcard" => alone .memberWildcard
  | "index" => return .index (← uint32? (← value?))
  | "index_wildcard" => alone .indexWildcard
  | "double_wildcard" => alone .doubleWildcard
  | _ => none

def Path.toJson (path : Path) : Json :=
  .obj [("segments", .arr (path.segments.map Segment.toJson))]

def Path.ofJson? (json : Json) : Option Path := do
  let record ← Record.ofJson? json
  guard (record.fits 1)
  return ⟨← list? Segment.ofJson? (← record.field? 0 "segments")⟩

/-! ### Function names -/

def FunctionName.toJson (f : FunctionName) : Json :=
  .obj [("schema", ofOption .str f.schema), ("name", .str f.name)]

def FunctionName.ofJson? (json : Json) : Option FunctionName := do
  let record ← Record.ofJson? json
  guard (record.fits 2)
  return ⟨← optional? text? (← record.nullable? 0 "schema"), ← text? (← record.field? 1 "name")⟩

namespace Expr

/-! ### Writing -/

mutual

def toJson : Expr → Json
  | .literal value => tagged "type" "literal" [("value", value.toJson)]
  | .field path => tagged "type" "field" [("path", path.toJson)]
  | .placeholder name position =>
    tagged "type" "placeholder" [("name", .str name), ("position", .int position.toNat)]
  | .unary op operand => tagged "type" "unary" [("op", .str op.name), ("operand", toJson operand)]
  | .binary op left right =>
    tagged "type" "binary" [("op", .str op.name), ("left", toJson left), ("right", toJson right)]
  | .call name args => tagged "type" "call" [("name", name.toJson), ("args", .arr (listToJson args))]
  | .star => tagged "type" "star" []
  | .isIn target list negated form =>
    tagged "type" "in" [("target", toJson target), ("list", .arr (listToJson list)),
      ("negated", .bool negated), ("form", .str form.name)]
  | .overlaps left right negated =>
    tagged "type" "overlaps" [("left", toJson left), ("right", toJson right),
      ("negated", .bool negated)]
  | .like target pattern escape negated =>
    tagged "type" "like" [("target", toJson target), ("pattern", toJson pattern),
      ("escape", optionToJson escape), ("negated", .bool negated)]
  | .between target low high negated =>
    tagged "type" "between" [("target", toJson target), ("low", toJson low), ("high", toJson high),
      ("negated", .bool negated)]
  | .isValue target value negated =>
    tagged "type" "is" [("target", toJson target), ("value", toJson value),
      ("negated", .bool negated)]
  | .regexp target pattern negated =>
    tagged "type" "regexp" [("target", toJson target), ("pattern", toJson pattern),
      ("negated", .bool negated)]
  | .array items => tagged "type" "array" [("items", .arr (listToJson items))]
  | .object fields => tagged "type" "object" [("fields", .arr (fieldsToJson fields))]

def listToJson : List Expr → List Json
  | [] => []
  | e :: rest => toJson e :: listToJson rest

def optionToJson : Option Expr → Json
  | none => .null
  | some e => toJson e

def fieldsToJson : List (String × Expr) → List Json
  | [] => []
  | (key, e) :: rest => .arr [.str key, toJson e] :: fieldsToJson rest

end

/-! ### Reading -/

/-- Read a node whose sub-expressions are read by `sub`. -/
def nodeOfJson? (sub : Json → Option Expr) (json : Json) : Option Expr := do
  let (shape, record) ← Record.ofTagged? "type" json
  let negatedAt (position : Nat) : Option Bool := do flag? (← record.field? position "negated")
  let subAt (position : Nat) (name : String) : Option Expr := do
    sub (← record.field? position name)
  let subsAt (position : Nat) (name : String) : Option (List Expr) := do
    list? sub (← record.field? position name)
  match shape with
  | "literal" =>
    guard (record.fits 1)
    return .literal (Value.ofJson (← record.field? 0 "value"))
  | "field" =>
    guard (record.fits 1)
    return .field (← Path.ofJson? (← record.field? 0 "path"))
  | "placeholder" =>
    guard (record.fits 2)
    return .placeholder (← text? (← record.field? 0 "name"))
      (← uint32? (← record.field? 1 "position"))
  | "unary" =>
    guard (record.fits 2)
    return .unary (← UnaryOp.ofName? (← text? (← record.field? 0 "op"))) (← subAt 1 "operand")
  | "binary" =>
    guard (record.fits 3)
    return .binary (← BinaryOp.ofName? (← text? (← record.field? 0 "op"))) (← subAt 1 "left")
      (← subAt 2 "right")
  | "call" =>
    guard (record.fits 2)
    return .call (← FunctionName.ofJson? (← record.field? 0 "name")) (← subsAt 1 "args")
  | "star" => return .star
  | "in" =>
    guard (record.fits 4)
    return .isIn (← subAt 0 "target") (← subsAt 1 "list") (← negatedAt 2)
      (← ListForm.ofName? (← text? (← record.field? 3 "form")))
  | "overlaps" =>
    guard (record.fits 3)
    return .overlaps (← subAt 0 "left") (← subAt 1 "right") (← negatedAt 2)
  | "like" =>
    guard (record.fits 4)
    return .like (← subAt 0 "target") (← subAt 1 "pattern")
      (← optional? sub (← record.nullable? 2 "escape")) (← negatedAt 3)
  | "between" =>
    guard (record.fits 4)
    return .between (← subAt 0 "target") (← subAt 1 "low") (← subAt 2 "high") (← negatedAt 3)
  | "is" =>
    guard (record.fits 3)
    return .isValue (← subAt 0 "target") (← subAt 1 "value") (← negatedAt 2)
  | "regexp" =>
    guard (record.fits 3)
    return .regexp (← subAt 0 "target") (← subAt 1 "pattern") (← negatedAt 2)
  | "array" =>
    guard (record.fits 1)
    return .array (← subsAt 0 "items")
  | "object" =>
    guard (record.fits 1)
    return .object (← list? (pair? text? sub) (← record.field? 0 "fields"))
  | _ => none

/-- Read a tree whose brackets nest at most `depth` deep. -/
def ofJsonWithin? : Nat → Json → Option Expr
  | 0, _ => none
  | depth + 1, json => nodeOfJson? (ofJsonWithin? depth) json

/-- Read an expression.  A sub-expression lies inside the brackets of its node. -/
def ofJson? (json : Json) : Option Expr := ofJsonWithin? json.depth json

end Expr

end DocStore
