/-!
# Tokens of expression text

A token is a kind and the stretch of the source it covers, in bytes.
-/

namespace DocStore

inductive TokenKind where
  | identifier
  /-- A name between backticks. -/
  | quotedIdentifier
  | keyword
  | stringLiteral
  | integer
  | float
  | leftParen | rightParen
  | leftBracket | rightBracket
  | leftBrace | rightBrace
  | comma
  | dot
  /-- The two characters `.*` -/
  | dotStar
  /-- The two characters `**` -/
  | doubleStar
  | colon
  | dollar
  | equals | notEqual
  | lessThan | lessEqual | greaterThan | greaterEqual
  | plus | minus | star | slash | percent
  | andAnd | orOr
  | bang | tilde | amp | pipe | caret
  | shiftLeft | shiftRight
  /-- The end of the source. -/
  | eof
  deriving DecidableEq, Repr, Inhabited

structure Token where
  kind : TokenKind
  /-- The offset of the first byte. -/
  start : Nat
  /-- The offset after the last byte. -/
  stop : Nat
  /-- The source text that the token covers. -/
  text : String
  deriving DecidableEq, Repr, Inhabited

/-- The words that are never plain identifiers, in lower case. -/
def keywords : List String :=
  ["and", "or", "not", "in", "like", "between", "is", "regexp", "overlaps", "true", "false",
    "null", "asc", "desc", "as", "escape", "div"]

/-- Whether a word is a keyword, in any case. -/
def isKeyword (word : String) : Bool := keywords.contains word.toLower

namespace Token

/-- Whether the token is this keyword, given in lower case. -/
def isWord (token : Token) (word : String) : Bool :=
  token.kind == .keyword && token.text.toLower == word

/-- A point directly after one of these is a step of a path and starts no number. -/
def endsPathStep (token : Token) : Bool :=
  match token.kind with
  | .identifier | .quotedIdentifier | .rightBracket | .dollar => true
  | _ => false

end Token

end DocStore
