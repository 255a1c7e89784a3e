import DocStore.Error
import DocStore.Expr.Lexer

/-!
# Reading tokens

A `Cursor` stands between two tokens of a source.  It knows the tokens ahead, how many it has
passed, and the placeholder names it has met.  A `Parser` moves it forward, or stops with an error
about the token it stands at.
-/

namespace DocStore

structure Cursor where
  /-- The tokens ahead, without the one for the end of the source. -/
  rest : List Token
  /-- The index of the next token. -/
  position : Nat
  /-- The names of the placeholders so far, in order of first appearance. -/
  names : List String
  deriving Inhabited

abbrev Parser := StateT Cursor (Except ParseError)

namespace Cursor

/-- The cursor before the first token of a source. -/
def ofTokens (tokens : List Token) : Cursor :=
  ⟨tokens.filter fun t => !(t.kind == .eof), 0, []⟩

/-- The kind of the `n`-th token ahead. -/
def kindAt (cursor : Cursor) (n : Nat) : TokenKind :=
  match cursor.rest[n]? with
  | some token => token.kind
  | none => .eof

/-- Whether the `n`-th token ahead is a keyword, given in lower case. -/
def isWordAt (cursor : Cursor) (n : Nat) (word : String) : Bool :=
  match cursor.rest[n]? with
  | some token => token.isWord word
  | none => false

end Cursor

namespace Parser

variable {α : Type}

def position : Parser Nat := do return (← get).position

/-- The number of tokens ahead. -/
def remaining : Parser Nat := do return (← get).rest.length

/-- The next token, or none at the end of the source. -/
def peek? : Parser (Option Token) := do return (← get).rest.head?

/-- The kind of the next token. -/
def peek : Parser TokenKind := do return (← get).kindAt 0

/-- Pass the next token; at the end of the source nothing happens. -/
def advance : Parser Unit :=
  modify fun c =>
    match c.rest with
    | [] => c
    | _ :: rest => { c with rest, position := c.position + 1 }

/-- Stop with an error about the place where the cursor stands. -/
def failHere (error : Nat → ParseError) : Parser α := do throw (error (← position))

/-- The next token cannot stand here. -/
def unexpected : Parser α := do
  match ← peek? with
  | some token => failHere (.unexpected token.text)
  | none => failHere .noTokens

/-- Pass the next token if it is of this kind. -/
def accept (kind : TokenKind) : Parser Bool := do
  if (← peek) = kind then
    advance
    return true
  else return false

/-- Pass the next token if it is this keyword, given in lower case. -/
def acceptWord (word : String) : Parser Bool := do
  if (← get).isWordAt 0 word then
    advance
    return true
  else return false

/-- Pass a token that has to stand here; `what` names it in the error. -/
def require (found : Bool) (what : String) : Parser Unit := do
  if found then return ()
  match ← peek? with
  | some token => failHere (.expected what token.text)
  | none => failHere .noTokens

/-- Pass a token of this kind, which has to stand here. -/
def expect (kind : TokenKind) (what : String) : Parser Unit := do
  require (← accept kind) what

/-- Pass a keyword, which has to stand here. -/
def expectWord (word : String) : Parser Unit := do
  require (← acceptWord word) word.toUpper

/-- Every token must have been passed. -/
def expectEnd : Parser Unit := do
  match ← peek? with
  | some _ => unexpected
  | none => return ()

/-- One or more elements with commas between them. -/
def commaSeparated (element : Parser α) : Parser (List α) := do
  let first ← element
  return first :: (← further (← remaining))
where
  /-- Every further element comes after a comma, so the tokens ahead bound their number. -/
  further : Nat → Parser (List α)
    | 0 => return []
    | bound + 1 => do
      if ← accept .comma then
        let next ← element
        return next :: (← further bound)
      else return []

/-- Run a parser on a source. -/
def run (parser : Parser α) (source : String) : Except ParseError (α × Cursor) := do
  let tokens ← Token.lex source
  StateT.run parser (Cursor.ofTokens tokens)

end Parser

end DocStore
