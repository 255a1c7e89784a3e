import DocStore.Eval
import DocStore.Proofs.Expr.Filling

/-!
# Evaluating in an environment

`Expr.evalWith env` evaluates an expression whose placeholders are read from an environment, as
fields are read from the scope.  It is what binding is for: evaluating a tree with its placeholders
filled in is evaluating the tree itself in that environment (`eval_map_fill`).  The evaluator of the
library, which knows no environment, is the one for the empty environment (`evalWith_none`).
-/

namespace DocStore

open Eval

variable (env : String → Option Value)

mutual

/-- The value of an expression in a scope and an environment. -/
def Expr.evalWith : Expr → Scope → Except DocError Value
  | .literal value, _ => .ok value
  | .field path, scope => .ok (scope.fieldValue path)
  | .placeholder name _, _ =>
    match env name with
    | some value => .ok value
    | none => .error (unbound name)
  | .star, _ => .error Function.starMisplaced
  | .unary op operand, scope => do return Arithmetic.unary op (← operand.evalWith scope)
  | .binary op left right, scope => do
    let l ← left.evalWith scope
    match op with
    | .and =>
      if !l.isNull && !l.isTruthy then return .bool false
      return Arithmetic.conjunction l (← right.evalWith scope)
    | .or =>
      if l.isTruthy then return .bool true
      return Arithmetic.disjunction l (← right.evalWith scope)
    | op => return Arithmetic.binary op l (← right.evalWith scope)
  | .call name args, scope =>
    let f := name.name.toLower
    if name.isAggregate then
      match scope with
      | .group rows _ => evalAggregateWith f args rows
      | .row _ => .error Function.notInGroup
    else do Function.call f (← evalListWith args scope)
  | .isIn target list negated form, scope => do
    let t ← target.evalWith scope
    if t.isNull then return .null
    match form with
    | .container =>
      match ← evalFirstWith list scope with
      | .null => return .null
      | container => return truth (container.contains t) negated
    | .paren | .bracket => return truth (← evalAnyEqualWith t list scope) negated
  | .overlaps left right negated, scope => do
    let l ← left.evalWith scope
    let r ← right.evalWith scope
    if l.isNull || r.isNull then return .null
    return truth (l.overlaps r) negated
  | .like target pattern escape negated, scope => do
    let t ← target.evalWith scope
    let p ← pattern.evalWith scope
    if t.isNull || p.isNull then return .null
    let e ← evalEscapeWith escape scope
    return truth (← likeMatch t.bareText p.bareText e) negated
  | .between target low high negated, scope => do
    let t ← target.evalWith scope
    let l ← low.evalWith scope
    let h ← high.evalWith scope
    if t.isNull || l.isNull || h.isNull then return .null
    return truth (within t l h) negated
  | .isValue target value negated, scope => do
    let t ← target.evalWith scope
    return truth (isOf t (← value.evalWith scope)) negated
  | .regexp target pattern negated, scope => do
    let t ← target.evalWith scope
    let p ← pattern.evalWith scope
    if t.isNull || p.isNull then return .null
    return truth (← matchesRegex t p) negated
  | .array items, scope => do return .arr (← evalListWith items scope)
  | .object fields, scope => do return .obj (Assoc.ofList (← evalFieldsWith fields scope))

def Expr.evalListWith : List Expr → Scope → Except DocError (List Value)
  | [], _ => .ok []
  | e :: rest, scope => do
    let v ← e.evalWith scope
    return v :: (← evalListWith rest scope)

def Expr.evalFieldsWith :
    List (String × Expr) → Scope → Except DocError (List (String × Value))
  | [], _ => .ok []
  | (key, e) :: rest, scope => do
    let v ← e.evalWith scope
    return (key, v) :: (← evalFieldsWith rest scope)

def Expr.evalFirstWith : List Expr → Scope → Except DocError Value
  | [], _ => .ok .null
  | e :: _, scope => e.evalWith scope

def Expr.evalAnyEqualWith (target : Value) : List Expr → Scope → Except DocError Bool
  | [], _ => .ok false
  | e :: rest, scope => do
    let v ← e.evalWith scope
    if v.looselyEquals target then return true
    evalAnyEqualWith target rest scope

def Expr.evalEscapeWith : Option Expr → Scope → Except DocError (Option Char)
  | none, _ => .ok (some defaultEscape)
  | some e, scope => do return (← e.evalWith scope).bareText.toList.head?

def Expr.evalAggregateWith (f : String) : List Expr → List Value → Except DocError Value
  | [arg], rows =>
    if f == "count" && arg matches .star then .ok (.ofCount rows.length)
    else do
      let values ← rows.mapM fun row => arg.evalWith (.row row)
      return Function.aggregate f (values.filter fun v => !v.isNull)
  | _, _ => .error (Function.wrongCount f)

end

namespace Expr

/-! ## Filling in and evaluating -/

mutual

theorem eval_map_fill : ∀ (e : Expr) (scope : Scope),
    (e.map (fill env)).eval scope = e.evalWith env scope
  | .literal _, _ | .field _, _ | .star, _ => rfl
  | .placeholder name _, scope => by
      cases hvalue : env name <;> simp [map, fill, hvalue, eval, evalWith]
  | .unary op operand, scope => by
      simp only [map, fill, eval, evalWith, eval_map_fill operand]
  | .binary op left right, scope => by
      simp only [map, fill, eval, eval_map_fill left, eval_map_fill right]
      -- Both evaluators choose by the same value whether the right operand counts.
      rfl
  | .call name args, scope => by
      simp only [map, fill, eval, evalList_map_fill args, evalAggregate_map_fill _ args]
      rfl
  | .isIn target list negated form, scope => by
      simp only [map, fill, eval, eval_map_fill target, evalFirst_map_fill list,
        evalAnyEqual_map_fill _ list]
      rfl
  | .overlaps left right negated, scope => by
      simp only [map, fill, eval, evalWith, eval_map_fill left, eval_map_fill right]
  | .like target pattern escape negated, scope => by
      simp only [map, fill, eval, evalWith, eval_map_fill target, eval_map_fill pattern,
        evalEscape_map_fill escape]
  | .between target low high negated, scope => by
      simp only [map, fill, eval, evalWith, eval_map_fill target, eval_map_fill low,
        eval_map_fill high]
  | .isValue target value negated, scope => by
      simp only [map, fill, eval, evalWith, eval_map_fill target, eval_map_fill value]
  | .regexp target pattern negated, scope => by
      simp only [map, fill, eval, evalWith, eval_map_fill target, eval_map_fill pattern]
  | .array items, scope => by
      simp only [map, fill, eval, evalWith, evalList_map_fill items]
  | .object fields, scope => by
      simp only [map, fill, eval, evalWith, evalFields_map_fill fields]

theorem evalList_map_fill : ∀ (es : List Expr) (scope : Scope),
    evalList (mapList (fill env) es) scope = evalListWith env es scope
  | [], _ => rfl
  | e :: rest, scope => by
      simp only [mapList, evalList, evalListWith, eval_map_fill e, evalList_map_fill rest]

theorem evalFields_map_fill : ∀ (fields : List (String × Expr)) (scope : Scope),
    evalFields (mapFields (fill env) fields) scope = evalFieldsWith env fields scope
  | [], _ => rfl
  | (key, e) :: rest, scope => by
      simp only [mapFields, evalFields, evalFieldsWith, eval_map_fill e, evalFields_map_fill rest]

theorem evalFirst_map_fill : ∀ (es : List Expr) (scope : Scope),
    evalFirst (mapList (fill env) es) scope = evalFirstWith env es scope
  | [], _ => rfl
  | e :: _, scope => eval_map_fill e scope

theorem evalAnyEqual_map_fill (target : Value) : ∀ (es : List Expr) (scope : Scope),
    evalAnyEqual target (mapList (fill env) es) scope = evalAnyEqualWith env target es scope
  | [], _ => rfl
  | e :: rest, scope => by
      simp only [mapList, evalAnyEqual, evalAnyEqualWith, eval_map_fill e,
        evalAnyEqual_map_fill target rest]

theorem evalEscape_map_fill : ∀ (e? : Option Expr) (scope : Scope),
    evalEscape (mapOption (fill env) e?) scope = evalEscapeWith env e? scope
  | none, _ => rfl
  | some e, scope => by simp only [mapOption, evalEscape, evalEscapeWith, eval_map_fill e]

theorem evalAggregate_map_fill (f : String) : ∀ (es : List Expr) (rows : List Value),
    evalAggregate f (mapList (fill env) es) rows = evalAggregateWith env f es rows
  | [], _ => rfl
  | [arg], rows => by
      simp only [mapList, evalAggregate, evalAggregateWith, eval_map_fill arg]
      -- Filling in makes no argument the one that is counted without being evaluated.
      cases arg with
      | placeholder name position => cases hvalue : env name <;> simp only [map, fill, hvalue]
      | _ => rfl
  | _ :: _ :: _, _ => rfl

end

/-- Without an environment a placeholder has no value. -/
theorem evalWith_none (e : Expr) (scope : Scope) :
    e.evalWith (fun _ => none) scope = e.eval scope := by
  rw [← eval_map_fill, map_fill_none]

end Expr

end DocStore
