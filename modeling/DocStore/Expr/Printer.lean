import DocStore.Expr.Basic
import DocStore.Value.Json

/-!
# Canonical text of expressions

Every operator and predicate is written with the parentheses around it, so that the text says how it
nests; literals are written as JSON.
-/

namespace DocStore

namespace Expr

/-- The word of a negated predicate. -/
def negation (negated : Bool) : String := if negated then "NOT " else ""

def commaSeparated (texts : List String) : String := ", ".intercalate texts

mutual

def text : Expr → String
  | .literal value => value.text
  | .field path => path.text
  | .placeholder name _ => ":" ++ name
  | .unary op operand => op.symbol ++ text operand
  | .binary op left right => "(" ++ text left ++ " " ++ op.symbol ++ " " ++ text right ++ ")"
  | .call name args => name.text ++ "(" ++ commaSeparated (listTexts args) ++ ")"
  | .star => "*"
  | .isIn target list negated form =>
    let items := commaSeparated (listTexts list)
    let candidates := match form with
      | .paren => "(" ++ items ++ ")"
      | .bracket => "[" ++ items ++ "]"
      | .container => items
    "(" ++ text target ++ " " ++ negation negated ++ "IN " ++ candidates ++ ")"
  | .overlaps left right negated =>
    "(" ++ text left ++ " " ++ negation negated ++ "OVERLAPS " ++ text right ++ ")"
  | .like target pattern escape negated =>
    "(" ++ text target ++ " " ++ negation negated ++ "LIKE " ++ text pattern ++ escapeText escape ++ ")"
  | .between target low high negated =>
    "(" ++ text target ++ " " ++ negation negated ++ "BETWEEN " ++ text low ++ " AND " ++ text high ++ ")"
  | .isValue target value negated =>
    "(" ++ text target ++ " IS " ++ negation negated ++ text value ++ ")"
  | .regexp target pattern negated =>
    "(" ++ text target ++ " " ++ negation negated ++ "REGEXP " ++ text pattern ++ ")"
  | .array items => "[" ++ commaSeparated (listTexts items) ++ "]"
  | .object fields => "\x7b" ++ commaSeparated (fieldTexts fields) ++ "\x7d"

def listTexts : List Expr → List String
  | [] => []
  | e :: rest => text e :: listTexts rest

def escapeText : Option Expr → String
  | none => ""
  | some e => " ESCAPE " ++ text e

def fieldTexts : List (String × Expr) → List String
  | [] => []
  | (key, e) :: rest => (Json.quote key ++ ": " ++ text e) :: fieldTexts rest

end

end Expr

end DocStore
