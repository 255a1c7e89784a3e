import DocStore.Eval.Containment
import DocStore.Eval.Field
import DocStore.Eval.Function
import DocStore.Pattern.Like
import DocStore.Pattern.RegexReader

/-!
# Evaluating expressions

An expression is evaluated in a scope: one row, or a group of rows.  In a group a field is the alias
of that name, if one is in scope, and the field of the first row otherwise; an aggregate evaluates
its argument in each row.
-/

namespace DocStore

/-- What fields are looked up in. -/
inductive Scope where
  | row (row : Value)
  /-- A group of rows, and the columns computed for it so far. -/
  | group (rows : List Value) (aliases : Option Document)
  deriving Inhabited

namespace Scope

/-- The alias that a path names: its only segment must be a member. -/
def alias? (aliases : Option Document) (path : Path) : Option Value :=
  match aliases, path.segments with
  | some members, [.member name] => Assoc.get? members name
  | _, _ => none

def fieldValue (scope : Scope) (path : Path) : Value :=
  match scope with
  | .row r => path.valueIn r
  | .group rows aliases =>
    match alias? aliases path, rows with
    | some value, _ => value
    | none, first :: _ => path.valueIn first
    | none, [] => .null

end Scope

namespace Eval

def unbound (name : String) : DocError := .bind s!"Placeholder ':{name}' has no bound value"

/-- The truth of a predicate, turned round if it is negated. -/
def truth (holds negated : Bool) : Value := .bool (holds != negated)

/-- Whether `target` lies between two bounds, both included. -/
def within (target low high : Value) : Bool :=
  Arithmetic.compares .gtEq target low && Arithmetic.compares .ltEq target high

/-- Whether `target IS value` holds: null is itself, a truth value asks for truth, and anything else
for equality. -/
def isOf (target : Value) : Value → Bool
  | .null => target.isNull
  | .bool true => target.isTruthy
  | .bool false => !target.isNull && !target.isTruthy
  | other => target.looselyEquals other

def matchesRegex (target pattern : Value) : Except DocError Bool := do
  return (← Regex.compile pattern.bareText).isMatch target.bareText

/-- The escape character where none is given. -/
def defaultEscape : Char := '\\'

end Eval

open Eval

mutual

/-- The value of an expression in a scope. -/
def Expr.eval : Expr → Scope → Except DocError Value
  | .literal value, _ => .ok value
  | .field path, scope => .ok (scope.fieldValue path)
  | .placeholder name _, _ => .error (unbound name)
  | .star, _ => .error Function.starMisplaced
  | .unary op operand, scope => do return Arithmetic.unary op (← operand.eval scope)
  | .binary op left right, scope => do
    let l ← left.eval scope
    match op with
    | .and =>
      if !l.isNull && !l.isTruthy then return .bool false
      return Arithmetic.conjunction l (← right.eval scope)
    | .or =>
      if l.isTruthy then return .bool true
      return Arithmetic.disjunction l (← right.eval scope)
    | op => return Arithmetic.binary op l (← right.eval scope)
  | .call name args, scope =>
    let f := name.name.toLower
    if name.isAggregate then
      match scope with
      | .group rows _ => evalAggregate f args rows
      | .row _ => .error Function.notInGroup
    else do Function.call f (← evalList args scope)
  | .isIn target list negated form, scope => do
    let t ← target.eval scope
    if t.isNull then return .null
    match form with
    | .container =>
      match ← evalFirst list scope with
      | .null => return .null
      | container => return truth (container.contains t) negated
    | .paren | .bracket => return truth (← evalAnyEqual t list scope) negated
  | .overlaps left right negated, scope => do
    let l ← left.eval scope
    let r ← right.eval scope
    if l.isNull || r.isNull then return .null
    return truth (l.overlaps r) negated
  | .like target pattern escape negated, scope => do
    let t ← target.eval scope
    let p ← pattern.eval scope
    if t.isNull || p.isNull then return .null
    let e ← evalEscape escape scope
    return truth (← likeMatch t.bareText p.bareText e) negated
  | .between target low high negated, scope => do
    let t ← target.eval scope
    let l ← low.eval scope
    let h ← high.eval scope
    if t.isNull || l.isNull || h.isNull then return .null
    return truth (within t l h) negated
  | .isValue target value negated, scope => do
    let t ← target.eval scope
    return truth (isOf t (← value.eval scope)) negated
  | .regexp target pattern negated, scope => do
    let t ← target.eval scope
    let p ← pattern.eval scope
    if t.isNull || p.isNull then return .null
    return truth (← matchesRegex t p) negated
  | .array items, scope => do return .arr (← evalList items scope)
  | .object fields, scope => do return .obj (Assoc.ofList (← evalFields fields scope))

def Expr.evalList : List Expr → Scope → Except DocError (List Value)
  | [], _ => .ok []
  | e :: rest, scope => do
    let v ← e.eval scope
    return v :: (← evalList rest scope)

def Expr.evalFields : List (String × Expr) → Scope → Except DocError (List (String × Value))
  | [], _ => .ok []
  | (key, e) :: rest, scope => do
    let v ← e.eval scope
    return (key, v) :: (← evalFields rest scope)

/-- The value of the only operand of a container list; null if there is none. -/
def Expr.evalFirst : List Expr → Scope → Except DocError Value
  | [], _ => .ok .null
  | e :: _, scope => e.eval scope

/-- Whether a value of the list equals `target`; those after the first such are not evaluated. -/
def Expr.evalAnyEqual (target : Value) : List Expr → Scope → Except DocError Bool
  | [], _ => .ok false
  | e :: rest, scope => do
    let v ← e.eval scope
    if v.looselyEquals target then return true
    evalAnyEqual target rest scope

/-- The escape character: the first of the given text, if it has one. -/
def Expr.evalEscape : Option Expr → Scope → Except DocError (Option Char)
  | none, _ => .ok (some defaultEscape)
  | some e, scope => do return (← e.eval scope).bareText.toList.head?

/-- The value of an aggregate over rows.  It takes one argument, and only `count` may be given `*`. -/
def Expr.evalAggregate (f : String) : List Expr → List Value → Except DocError Value
  | [arg], rows =>
    if f == "count" && arg matches .star then .ok (.ofCount rows.length)
    else do
      let values ← rows.mapM fun row => arg.eval (.row row)
      return Function.aggregate f (values.filter fun v => !v.isNull)
  | _, _ => .error (Function.wrongCount f)

end

/-- Whether a row passes a filter: its value there must be true. -/
def Expr.passes (filter : Option Expr) (row : Value) : Except DocError Bool :=
  match filter with
  | some e => do return (← e.eval (.row row)).isTruthy
  | none => .ok true

end DocStore
