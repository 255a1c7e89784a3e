import DocStore.Path
import DocStore.Value.Basic

/-!
# Expressions

The tree of a filter, a sort key, a grouping or a projected column.  Beside the tree stand the views
the rest of the library reads it by: its direct children, all its nodes in reading order, the names
of its placeholders, and the replacement of nodes from the leaves up.
-/

namespace DocStore

inductive BinaryOp where
  | or | and
  | eq | notEq | lt | ltEq | gt | gtEq
  | bitAnd | bitOr | bitXor | shl | shr
  | add | sub | mul | div | mod
  deriving DecidableEq, Repr, Inhabited

inductive UnaryOp where
  | not | neg | bitNot
  deriving DecidableEq, Repr, Inhabited

/-- What supplied the candidates of an `IN` predicate. -/
inductive ListForm where
  /-- `x IN (a, b)`: any expressions -/
  | paren
  /-- `x IN [1, 2]`: literals only -/
  | bracket
  /-- `x IN doc.field`: what the operand's value contains -/
  | container
  deriving DecidableEq, Repr, Inhabited

/-- The name of a function, with the schema it is looked up in, if any is written. -/
structure FunctionName where
  schema : Option String
  name : String
  deriving DecidableEq, Repr, Inhabited

inductive Expr where
  | literal (value : Value)
  | field (path : Path)
  /-- A named placeholder and the place of its name in the order of first appearance. -/
  | placeholder (name : String) (position : UInt32)
  | unary (op : UnaryOp) (operand : Expr)
  | binary (op : BinaryOp) (left right : Expr)
  | call (name : FunctionName) (args : List Expr)
  /-- The argument of `count(*)`. -/
  | star
  /-- `target [NOT] IN list`; a `container` list holds one operand. -/
  | isIn (target : Expr) (list : List Expr) (negated : Bool) (form : ListForm)
  | overlaps (left right : Expr) (negated : Bool)
  | like (target pattern : Expr) (escape : Option Expr) (negated : Bool)
  | between (target low high : Expr) (negated : Bool)
  /-- `target IS [NOT] value` -/
  | isValue (target value : Expr) (negated : Bool)
  | regexp (target pattern : Expr) (negated : Bool)
  | array (items : List Expr)
  | object (fields : List (String × Expr))
  deriving Inhabited

namespace BinaryOp

/-- Every operator, loosest first within its family. -/
def all : List BinaryOp :=
  [.or, .and, .eq, .notEq, .lt, .ltEq, .gt, .gtEq, .bitAnd, .bitOr, .bitXor, .shl, .shr,
    .add, .sub, .mul, .div, .mod]

/-- The name of an operator on the wire. -/
def name : BinaryOp → String
  | .or => "or" | .and => "and"
  | .eq => "eq" | .notEq => "not_eq" | .lt => "lt" | .ltEq => "lt_eq" | .gt => "gt" | .gtEq => "gt_eq"
  | .bitAnd => "bit_and" | .bitOr => "bit_or" | .bitXor => "bit_xor" | .shl => "shl" | .shr => "shr"
  | .add => "add" | .sub => "sub" | .mul => "mul" | .div => "div" | .mod => "mod"

def ofName? (name : String) : Option BinaryOp := all.find? (·.name == name)

/-- How tightly an operator binds; a higher number binds tighter. -/
def precedence : BinaryOp → Nat
  | .or => 1
  | .and => 2
  | .eq | .notEq | .lt | .ltEq | .gt | .gtEq => 4
  | .bitAnd | .bitOr | .bitXor | .shl | .shr => 6
  | .add | .sub => 7
  | .mul | .div | .mod => 8

def isComparison : BinaryOp → Bool
  | .eq | .notEq | .lt | .ltEq | .gt | .gtEq => true
  | _ => false

def isLogical : BinaryOp → Bool
  | .and | .or => true
  | _ => false

/-- The spelling of an operator in canonical text. -/
def symbol : BinaryOp → String
  | .or => "||" | .and => "&&"
  | .eq => "==" | .notEq => "!=" | .lt => "<" | .ltEq => "<=" | .gt => ">" | .gtEq => ">="
  | .bitAnd => "&" | .bitOr => "|" | .bitXor => "^" | .shl => "<<" | .shr => ">>"
  | .add => "+" | .sub => "-" | .mul => "*" | .div => "/" | .mod => "%"

end BinaryOp

namespace UnaryOp

def all : List UnaryOp := [.not, .neg, .bitNot]

/-- The name of an operator on the wire. -/
def name : UnaryOp → String
  | .not => "not" | .neg => "neg" | .bitNot => "bit_not"

def ofName? (name : String) : Option UnaryOp := all.find? (·.name == name)

/-- The spelling of an operator in canonical text. -/
def symbol : UnaryOp → String
  | .not => "!" | .neg => "-" | .bitNot => "~"

end UnaryOp

namespace ListForm

def all : List ListForm := [.paren, .bracket, .container]

/-- The name of a form on the wire. -/
def name : ListForm → String
  | .paren => "paren" | .bracket => "bracket" | .container => "container"

def ofName? (name : String) : Option ListForm := all.find? (·.name == name)

end ListForm

namespace FunctionName

/-- The names of the functions that take a whole group of rows, in any case. -/
def isAggregate (f : FunctionName) : Bool :=
  ["count", "sum", "min", "max", "avg"].contains f.name.toLower

def text (f : FunctionName) : String :=
  match f.schema with
  | some schema => schema ++ "." ++ f.name
  | none => f.name

end FunctionName

namespace Expr

/-! ### Views -/

/-- The direct sub-expressions, left to right. -/
def children : Expr → List Expr
  | .literal _ | .field _ | .placeholder .. | .star => []
  | .unary _ operand => [operand]
  | .binary _ left right | .overlaps left right _ => [left, right]
  | .call _ args => args
  | .isIn target list _ _ => target :: list
  | .like target pattern escape _ => target :: pattern :: escape.toList
  | .between target low high _ => [target, low, high]
  | .isValue target value _ => [target, value]
  | .regexp target pattern _ => [target, pattern]
  | .array items => items
  | .object fields => fields.map Prod.snd

mutual

/-- All nodes in reading order, each before its children. -/
def nodes (e : Expr) : List Expr :=
  e :: match e with
  | .literal _ | .field _ | .placeholder .. | .star => []
  | .unary _ operand => nodes operand
  | .binary _ left right | .overlaps left right _ => nodes left ++ nodes right
  | .call _ args => nodesOfList args
  | .isIn target list _ _ => nodes target ++ nodesOfList list
  | .like target pattern escape _ => nodes target ++ nodes pattern ++ nodesOfOption escape
  | .between target low high _ => nodes target ++ nodes low ++ nodes high
  | .isValue target value _ => nodes target ++ nodes value
  | .regexp target pattern _ => nodes target ++ nodes pattern
  | .array items => nodesOfList items
  | .object fields => nodesOfFields fields

def nodesOfList : List Expr → List Expr
  | [] => []
  | e :: rest => nodes e ++ nodesOfList rest

def nodesOfOption : Option Expr → List Expr
  | none => []
  | some e => nodes e

def nodesOfFields : List (String × Expr) → List Expr
  | [] => []
  | (_, e) :: rest => nodes e ++ nodesOfFields rest

end

mutual

/-- Whether the expression may stand in a bracketed list: a scalar literal, a placeholder, or an
array or object of such. -/
def isLiteral : Expr → Bool
  | .literal _ | .placeholder .. => true
  | .array items => allLiteral items
  | .object fields => allFieldsLiteral fields
  | _ => false

def allLiteral : List Expr → Bool
  | [] => true
  | e :: rest => isLiteral e && allLiteral rest

def allFieldsLiteral : List (String × Expr) → Bool
  | [] => true
  | (_, e) :: rest => isLiteral e && allFieldsLiteral rest

end

mutual

/-- Judge a tree: a node that `judge` decides counts as decided, and any other node holds if all its
children do. -/
def every (judge : Expr → Option Bool) (e : Expr) : Bool :=
  match judge e with
  | some decided => decided
  | none =>
    match e with
    | .literal _ | .field _ | .placeholder .. | .star => true
    | .unary _ operand => every judge operand
    | .binary _ left right | .overlaps left right _ => every judge left && every judge right
    | .call _ args => everyOfList judge args
    | .isIn target list _ _ => every judge target && everyOfList judge list
    | .like target pattern escape _ =>
      every judge target && every judge pattern && everyOfOption judge escape
    | .between target low high _ => every judge target && every judge low && every judge high
    | .isValue target value _ => every judge target && every judge value
    | .regexp target pattern _ => every judge target && every judge pattern
    | .array items => everyOfList judge items
    | .object fields => everyOfFields judge fields

def everyOfList (judge : Expr → Option Bool) : List Expr → Bool
  | [] => true
  | e :: rest => every judge e && everyOfList judge rest

def everyOfOption (judge : Expr → Option Bool) : Option Expr → Bool
  | none => true
  | some e => every judge e

def everyOfFields (judge : Expr → Option Bool) : List (String × Expr) → Bool
  | [] => true
  | (_, e) :: rest => every judge e && everyOfFields judge rest

end

/-- The name of a placeholder node. -/
def placeholderName? : Expr → Option String
  | .placeholder name _ => some name
  | _ => none

/-- The names that occur in a list, each at its first place. -/
def firstOccurrences (names : List String) : List String :=
  names.foldl (fun seen name => if seen.contains name then seen else seen ++ [name]) []

/-- The names of the placeholders, in order of first appearance. -/
def placeholderNames (e : Expr) : List String :=
  firstOccurrences (e.nodes.filterMap placeholderName?)

/-- Whether the node itself calls an aggregate function. -/
def isAggregateCall : Expr → Bool
  | .call name _ => name.isAggregate
  | _ => false

/-- Whether an aggregate function is called anywhere in the tree. -/
def hasAggregate (e : Expr) : Bool := e.nodes.any isAggregateCall

/-! ### Replacement -/

mutual

/-- Replace every node by its image under `f`, the children first. -/
def map (f : Expr → Expr) : Expr → Expr
  | .literal value => f (.literal value)
  | .field path => f (.field path)
  | .placeholder name position => f (.placeholder name position)
  | .star => f .star
  | .unary op operand => f (.unary op (map f operand))
  | .binary op left right => f (.binary op (map f left) (map f right))
  | .call name args => f (.call name (mapList f args))
  | .isIn target list negated form => f (.isIn (map f target) (mapList f list) negated form)
  | .overlaps left right negated => f (.overlaps (map f left) (map f right) negated)
  | .like target pattern escape negated =>
    f (.like (map f target) (map f pattern) (mapOption f escape) negated)
  | .between target low high negated =>
    f (.between (map f target) (map f low) (map f high) negated)
  | .isValue target value negated => f (.isValue (map f target) (map f value) negated)
  | .regexp target pattern negated => f (.regexp (map f target) (map f pattern) negated)
  | .array items => f (.array (mapList f items))
  | .object fields => f (.object (mapFields f fields))

def mapList (f : Expr → Expr) : List Expr → List Expr
  | [] => []
  | e :: rest => map f e :: mapList f rest

def mapOption (f : Expr → Expr) : Option Expr → Option Expr
  | none => none
  | some e => some (map f e)

def mapFields (f : Expr → Expr) : List (String × Expr) → List (String × Expr)
  | [] => []
  | (key, e) :: rest => (key, map f e) :: mapFields f rest

end

/-! ### Equality -/

mutual

/-- Equality of trees; literals compare as values do. -/
def same : Expr → Expr → Bool
  | .literal a, .literal b => a == b
  | .field a, .field b => a == b
  | .placeholder a i, .placeholder b j => a == b && i == j
  | .star, .star => true
  | .unary op a, .unary op' b => op == op' && same a b
  | .binary op a b, .binary op' c d => op == op' && same a c && same b d
  | .call name args, .call name' args' => name == name' && sameList args args'
  | .isIn a xs n form, .isIn b ys n' form' => same a b && sameList xs ys && n == n' && form == form'
  | .overlaps a b n, .overlaps c d n' => same a c && same b d && n == n'
  | .like a p x n, .like b q y n' => same a b && same p q && sameOption x y && n == n'
  | .between a l h n, .between b l' h' n' => same a b && same l l' && same h h' && n == n'
  | .isValue a v n, .isValue b w n' => same a b && same v w && n == n'
  | .regexp a p n, .regexp b q n' => same a b && same p q && n == n'
  | .array xs, .array ys => sameList xs ys
  | .object fs, .object gs => sameFields fs gs
  | _, _ => false

def sameList : List Expr → List Expr → Bool
  | [], [] => true
  | a :: xs, b :: ys => same a b && sameList xs ys
  | _, _ => false

def sameOption : Option Expr → Option Expr → Bool
  | none, none => true
  | some a, some b => same a b
  | _, _ => false

def sameFields : List (String × Expr) → List (String × Expr) → Bool
  | [], [] => true
  | (k, a) :: fs, (l, b) :: gs => k == l && same a b && sameFields fs gs
  | _, _ => false

end

instance : BEq Expr := ⟨same⟩

end Expr

end DocStore
