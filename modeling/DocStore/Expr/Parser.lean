import DocStore.Clause
import DocStore.Decimal.Numeral
import DocStore.Expr.Cursor
import DocStore.Expr.Printer
import DocStore.Text.Case

/-!
# Reading expressions

The grammar of filters, sort lists, projections, groupings and document paths, read by precedence.
Binding powers, loosest first:

| power | operators |
|---|---|
| 1 | `or`, `||` |
| 3 | `and`, `&&` |
| 5 | `not` before its operand |
| 7 | `=`, `==`, `!=`, `<>`, `<`, `<=`, `>`, `>=` |
| 9 | `[not] in`, `[not] overlaps`, `[not] like`, `[not] between`, `is [not]`, `[not] regexp` |
| 11 | `&`, `|`, `^`, `<<`, `>>` |
| 13 | `+`, `-` |
| 15 | `*`, `/`, `div`, `%` |
| 17 | `-`, `!`, `~` before their operand |

Binary operators group to the left.  A construct that holds expressions is given the parser for
them, `sub`, which takes the least binding power an operator inside may have; `expression` ties the
knot.
-/

namespace DocStore.Parser

/-- The parser of an expression whose operators bind at least as tightly as given. -/
abbrev Sub := Nat → Parser Expr

/-! ### Binding powers -/

def notPower : Nat := 5

def predicatePower : Nat := 9

/-- The power of an operand of a predicate, so that no predicate stands in it bare. -/
def operandPower : Nat := 11

def signPower : Nat := 17

def leftPower (op : BinaryOp) : Nat := 2 * op.precedence - 1

/-- The power of a right operand: operators of the same level group to the left. -/
def rightPower (op : BinaryOp) : Nat := 2 * op.precedence

/-- The operator that a token stands for between two operands. -/
def binaryOp? (token : Token) : Option BinaryOp :=
  match token.kind with
  | .orOr => some .or
  | .andAnd => some .and
  | .equals => some .eq
  | .notEqual => some .notEq
  | .lessThan => some .lt
  | .lessEqual => some .ltEq
  | .greaterThan => some .gt
  | .greaterEqual => some .gtEq
  | .amp => some .bitAnd
  | .pipe => some .bitOr
  | .caret => some .bitXor
  | .shiftLeft => some .shl
  | .shiftRight => some .shr
  | .plus => some .add
  | .minus => some .sub
  | .star => some .mul
  | .slash => some .div
  | .percent => some .mod
  | .keyword =>
    if token.isWord "or" then some .or
    else if token.isWord "and" then some .and
    else if token.isWord "div" then some .div
    else none
  | _ => none

/-! ### Names and literals -/

/-- The value of a number token.  An integer beyond 64 bits is a floating-point number. -/
def numberValue (kind : TokenKind) (text : String) : Value :=
  let cs := text.toList
  let whole? : Option Value :=
    if kind = .integer then
      ((Decimal.int64? cs).map Value.int).or ((Decimal.uint64? cs).map Value.uint)
    else none
  (whole?.or ((Decimal.float? cs).map Value.float)).getD .null

/-- The name that starts a path or a call. -/
def memberName : Parser String := do
  match ← peek? with
  | some token =>
    match token.kind with
    | .identifier => advance; return token.text
    | .quotedIdentifier => advance; return Quoted.unquote token.text
    | _ => unexpected
  | none => unexpected

/-- The name of a column after `as`. -/
def aliasName : Parser String := do
  match ← peek? with
  | some token =>
    match token.kind with
    | .identifier => advance; return token.text
    | .quotedIdentifier => advance; return Quoted.unquote token.text
    | .stringLiteral => advance; return Quoted.unescape token.text
    | _ => unexpected
  | none => unexpected

/-- The place of a placeholder's name among those met so far, at the end if it is new. -/
def placeOf (name : String) : Parser UInt32 := do
  let cursor ← get
  match cursor.names.idxOf? name with
  | some i => return UInt32.ofNat i
  | none =>
    set { cursor with names := cursor.names ++ [name] }
    return UInt32.ofNat cursor.names.length

/-- A placeholder after its colon.  Names are the same in any case. -/
def placeholder : Parser Expr := do
  match ← peek? with
  | some token =>
    let name? : Option String := match token.kind with
      | .identifier | .integer | .keyword => some token.text.toLower
      | .quotedIdentifier => some (Text.lower (Quoted.unquote token.text))
      | _ => none
    match name? with
    | some name =>
      advance
      return .placeholder name (← placeOf name)
    | none => failHere .invalidPlaceholder
  | none => failHere .noTokens

/-! ### Paths -/

/-- The name after the point of a member step; keywords and strings name members too. -/
def memberStep : Parser Segment := do
  match ← peek? with
  | some token =>
    let name? : Option String := match token.kind with
      | .identifier | .keyword => some token.text
      | .quotedIdentifier => some (Quoted.unquote token.text)
      | .stringLiteral => some (Quoted.unescape token.text)
      | _ => none
    match name? with
    | some name =>
      advance
      return .member name
    | none => failHere .memberExpected
  | none => failHere .noTokens

/-- What stands between the brackets of an index step, and the closing one. -/
def indexStep : Parser Segment := do
  match ← peek? with
  | some token =>
    let segment ← match token.kind with
      | .star => pure Segment.indexWildcard
      | .integer =>
        match Decimal.naturalBelow? UInt32.size token.text.toList with
        | some n => pure (Segment.index (UInt32.ofNat n))
        | none => failHere .indexOutOfRange
      | .minus => failHere .negativeIndex
      | _ => failHere .indexExpected
    advance
    expect .rightBracket "]"
    return segment
  | none => failHere .noTokens

/-- The next step of a path, if one follows. -/
def pathStep? : Parser (Option Segment) := do
  if ← accept .dot then return some (← memberStep)
  else if ← accept .dotStar then return some .memberWildcard
  else if ← accept .doubleStar then return some .doubleWildcard
  else if ← accept .leftBracket then return some (← indexStep)
  else return none

/-- All steps that follow.  Each takes a token at least, so the tokens ahead bound their number. -/
def pathSteps : Nat → Parser (List Segment)
  | 0 => return []
  | bound + 1 => do
    match ← pathStep? with
    | some segment => return segment :: (← pathSteps bound)
    | none => return []

/-- The rest of a path that starts with the given steps.  It may not end in `**`. -/
def pathFrom (start : List Segment) : Parser Path := do
  let segments := start ++ (← pathSteps (← remaining))
  if segments.getLast? = some .doubleWildcard then failHere .openEndedPath
  return ⟨segments⟩

/-! ### Operands -/

/-- A list in brackets may hold literals only; `position` is where it starts. -/
def requireLiterals (e : Expr) (position : Nat) : Parser Unit := do
  match e with
  | .array items =>
    match items.find? fun item => !item.isLiteral with
    | some item => throw (.nonLiteral item.text position)
    | none => return ()
  | _ => return ()

/-- Comma-separated expressions up to a closing token, which may come at once. -/
def listUntil (sub : Sub) (closing : TokenKind) (what : String) : Parser (List Expr) := do
  let items ← if (← peek) = closing then pure [] else commaSeparated (sub 0)
  expect closing what
  return items

/-- One `key: value` of an object. -/
def objectField (sub : Sub) : Parser (String × Expr) := do
  match ← peek? with
  | some token =>
    let key? : Option String := match token.kind with
      | .stringLiteral => some (Quoted.unescape token.text)
      | .identifier => some token.text
      | .quotedIdentifier => some (Quoted.unquote token.text)
      | _ => none
    match key? with
    | some key =>
      advance
      expect .colon ":"
      return (key, ← sub 0)
    | none => unexpected
  | none => unexpected

/-- The fields of an object and its closing brace. -/
def objectBody (sub : Sub) : Parser Expr := do
  let fields ← if (← peek) = .rightBrace then pure [] else commaSeparated (objectField sub)
  expect .rightBrace "\x7d"
  return .object fields

/-- The arguments of a call and its closing parenthesis. -/
def arguments (sub : Sub) : Parser (List Expr) := do
  let cursor ← get
  if cursor.kindAt 0 = .star ∧ cursor.kindAt 1 = .rightParen then
    advance
    expect .rightParen ")"
    return [.star]
  else listUntil sub .rightParen ")"

/-- A function call, its name being next. -/
def call (sub : Sub) : Parser Expr := do
  let first ← memberName
  let name ← if ← accept .dot then pure ⟨some first, ← memberName⟩ else pure ⟨none, first⟩
  expect .leftParen "("
  return .call name (← arguments sub)

/-- Whether a name ahead starts a call: an opening parenthesis follows it or its second part. -/
def startsCall (cursor : Cursor) : Bool :=
  cursor.kindAt 1 == .leftParen
    || (cursor.kindAt 1 == .dot && cursor.kindAt 2 == .identifier && cursor.kindAt 3 == .leftParen)

/-- A call, or the path of a field. -/
def named (sub : Sub) : Parser Expr := do
  if startsCall (← get) then call sub
  else
    let name ← memberName
    return .field (← pathFrom [.member name])

/-- The value of a keyword that is a literal. -/
def wordValue? (token : Token) : Option Value :=
  if token.isWord "true" then some (.bool true)
  else if token.isWord "false" then some (.bool false)
  else if token.isWord "null" then some .null
  else none

/-- An operand without anything before it. -/
def primary (sub : Sub) : Parser Expr := do
  match ← peek? with
  | none => unexpected
  | some token =>
    match token.kind with
    | .integer | .float => advance; return .literal (numberValue token.kind token.text)
    | .stringLiteral => advance; return .literal (.str (Quoted.unescape token.text))
    | .keyword =>
      match wordValue? token with
      | some value => advance; return .literal value
      | none => unexpected
    | .colon => advance; placeholder
    | .leftParen =>
      advance
      let e ← sub 0
      expect .rightParen ")"
      return e
    | .leftBracket => advance; return .array (← listUntil sub .rightBracket "]")
    | .leftBrace => advance; objectBody sub
    | .dollar => advance; return .field (← pathFrom [])
    | .identifier | .quotedIdentifier => named sub
    | _ => unexpected

/-- What follows a sign.  A number takes the sign into its value; a plus before anything else has no
effect. -/
def signed (sub : Sub) (sign : Token) : Parser Expr := do
  match ← peek? with
  | some number =>
    if number.kind = .integer ∨ number.kind = .float then
      advance
      return .literal (numberValue number.kind (sign.text ++ number.text))
    else operand
  | none => operand
where
  operand : Parser Expr := do
    let e ← sub signPower
    return if sign.kind = .plus then e else .unary .neg e

/-- An operand with the operators before it. -/
def operand (sub : Sub) : Parser Expr := do
  match ← peek? with
  | none => primary sub
  | some token =>
    match token.kind with
    | .minus | .plus => advance; signed sub token
    | .bang => advance; return .unary .not (← sub signPower)
    | .tilde => advance; return .unary .bitNot (← sub signPower)
    | _ =>
      if token.isWord "not" then
        advance
        return .unary .not (← sub notPower)
      else primary sub

/-! ### Predicates -/

/-- The words of the predicates that `not` may stand before. -/
def predicateWords : List String := ["in", "overlaps", "like", "between", "regexp"]

/-- Whether a predicate about what was read stands ahead. -/
def atPredicate (cursor : Cursor) : Bool :=
  let skipped := if cursor.isWordAt 0 "not" then 1 else 0
  cursor.isWordAt 0 "is" || predicateWords.any (cursor.isWordAt skipped)

/-- The candidates of `IN`. -/
def inList (sub : Sub) (target : Expr) (negated : Bool) : Parser Expr := do
  match ← peek with
  | .leftParen =>
    advance
    return .isIn target (← listUntil sub .rightParen ")") negated .paren
  | .leftBracket =>
    let start ← position
    let list ← primary sub
    requireLiterals list start
    let items := match list with
      | .array items => items
      | other => [other]
    return .isIn target items negated .bracket
  | _ => return .isIn target [← sub operandPower] negated .container

/-- The predicate ahead, about `target`, which starts at the token `start`. -/
def predicate (sub : Sub) (target : Expr) (start : Nat) : Parser Expr := do
  let negated ← acceptWord "not"
  if ← acceptWord "in" then inList sub target negated
  else if ← acceptWord "overlaps" then
    requireLiterals target start
    let rightStart ← position
    let right ← sub operandPower
    requireLiterals right rightStart
    return .overlaps target right negated
  else if ← acceptWord "like" then
    let pattern ← sub operandPower
    let escape ← if ← acceptWord "escape" then some <$> sub operandPower else pure none
    return .like target pattern escape negated
  else if ← acceptWord "between" then
    let low ← sub operandPower
    expectWord "and"
    return .between target low (← sub operandPower) negated
  else if ← acceptWord "regexp" then
    return .regexp target (← sub operandPower) negated
  else if negated then unexpected
  else
    expectWord "is"
    let negated ← acceptWord "not"
    return .isValue target (← sub operandPower) negated

/-! ### Expressions -/

/-- Extend `left`, which starts at the token `start`, by all operators and predicates ahead that
bind at least as tightly as `least`.  Each takes a token, so the tokens ahead bound their number. -/
def operators (sub : Sub) (least start : Nat) : Nat → Expr → Parser Expr
  | 0, left => return left
  | bound + 1, left => do
    if atPredicate (← get) then
      if predicatePower < least then return left
      operators sub least start bound (← predicate sub left start)
    else
      match (← peek?).bind binaryOp? with
      | none => return left
      | some op =>
        if leftPower op < least then return left
        advance
        let right ← sub (rightPower op)
        operators sub least start bound (.binary op left right)

/-- An expression whose operators bind at least as tightly as `least`.  An expression inside another
comes after a token of the outer one, so a depth above the number of tokens ahead is never used
up. -/
def expression : Nat → Sub
  | 0, _ => unexpected
  | depth + 1, least => do
    let start ← position
    let left ← operand (expression depth)
    operators (expression depth) least start (← remaining) left

/-- An expression that stands for itself. -/
def wholeExpression : Parser Expr := do
  expression ((← remaining) + 1) 0

/-- A filter: one expression. -/
def filter : Parser Expr := do
  let e ← wholeExpression
  expectEnd
  return e

/-- A sort key: an expression and its direction, ascending if none is written. -/
def sortKey : Parser SortKey := do
  let expr ← wholeExpression
  if ← acceptWord "desc" then return ⟨expr, .desc⟩
  let _ ← acceptWord "asc"
  return ⟨expr, .asc⟩

/-- A sort list. -/
def sortKeys : Parser (List SortKey) := do
  let keys ← commaSeparated sortKey
  expectEnd
  return keys

/-- A projected column.  A field without an alias is named after its first member. -/
def column : Parser Column := do
  let source ← wholeExpression
  if ← acceptWord "as" then return ⟨source, some (← aliasName)⟩
  match source with
  | .field path => return ⟨source, path.firstMember?⟩
  | _ => return ⟨source, none⟩

/-- A projection. -/
def columns : Parser (List Column) := do
  let columns ← commaSeparated column
  expectEnd
  return columns

/-- A list of expressions. -/
def expressions : Parser (List Expr) := do
  let es ← commaSeparated wholeExpression
  expectEnd
  return es

/-- A document path that stands for itself: it starts at the root or with a member, and leads
somewhere. -/
def documentPath : Parser Path := do
  let start ← position
  let path ← match ← peek with
    | .dollar => advance; pathFrom []
    | .identifier | .quotedIdentifier => do
      let name ← memberName
      pathFrom [.member name]
    | _ => unexpected
  if path.isRoot then throw (.rootPath start)
  expectEnd
  return path

end Parser

/-! ### Reading whole texts -/

/-- Read a filter or a condition on groups. -/
def Expr.parse (source : String) : Except ParseError Expr :=
  (Parser.filter.run source).map Prod.fst

/-- Read a list of expressions, as for grouping. -/
def Expr.parseList (source : String) : Except ParseError (List Expr) :=
  (Parser.expressions.run source).map Prod.fst

/-- Read a sort list such as `pages desc, title`. -/
def SortKey.parseList (source : String) : Except ParseError (List SortKey) :=
  (Parser.sortKeys.run source).map Prod.fst

/-- Read a projection such as `_id as ID, count(*) as n`. -/
def Column.parseList (source : String) : Except ParseError (List Column) :=
  (Parser.columns.run source).map Prod.fst

/-- Read a document path. -/
def Path.parse (source : String) : Except ParseError Path :=
  (Parser.documentPath.run source).map Prod.fst

end DocStore
