/-!
# Errors

What can go wrong between a caller's text and the rows of a collection.  The wording of each error
stands beside the cause that raises it; here are the kinds, how they are shown, and the errors of
reading an expression, whose cause is a place in the text.
-/

namespace DocStore

/-- The kinds of failure in reading an expression. -/
inductive ParseErrorKind where
  /-- The text ended where a token was still required. -/
  | noTokens
  /-- A token that cannot stand here. -/
  | unexpectedToken
  /-- A character that starts no token. -/
  | invalidToken
  | unterminatedString
  /-- An element of a bracketed list that is no literal. -/
  | nonLiteralListElement
  | invalidPath
  /-- One token was required and another found. -/
  | expected
  deriving DecidableEq, Repr, Inhabited

/-- A failure in reading an expression.  The position is a byte offset where no token could be
formed, and the index of a token otherwise. -/
structure ParseError where
  kind : ParseErrorKind
  message : String
  position : Option Nat
  deriving DecidableEq, Repr, Inhabited

namespace ParseError

def noTokens (position : Nat) : ParseError :=
  ⟨.noTokens, s!"No more tokens when expecting one at token pos {position}", some position⟩

def unexpected (lexeme : String) (position : Nat) : ParseError :=
  ⟨.unexpectedToken, s!"Expression has unexpected token '{lexeme}' at position {position}.",
    some position⟩

def invalidCharacter (c : Char) (offset : Nat) : ParseError :=
  ⟨.invalidToken, s!"Unexpected character '{c}' at position {offset}", some offset⟩

def unterminatedString (offset : Nat) : ParseError :=
  ⟨.unterminatedString, s!"Unterminated string starting at {offset}", some offset⟩

def unterminatedName (offset : Nat) : ParseError :=
  ⟨.unterminatedString, s!"Unterminated quoted identifier starting at {offset}", some offset⟩

def expected (what found : String) (position : Nat) : ParseError :=
  ⟨.expected, s!"Expected '{what}' but found '{found}' at token pos {position}", some position⟩

def invalidPlaceholder (position : Nat) : ParseError :=
  ⟨.expected, s!"Invalid placeholder name at token pos {position}", some position⟩

def nonLiteral (element : String) (position : Nat) : ParseError :=
  ⟨.nonLiteralListElement,
    s!"Bracketed list starting at token pos {position} may only contain literals, found '{element}'",
    some position⟩

def rootPath (position : Nat) : ParseError :=
  ⟨.invalidPath, s!"Invalid document path at token pos {position}", some position⟩

def openEndedPath (position : Nat) : ParseError :=
  ⟨.invalidPath, "JSON path may not end in '**'", some position⟩

def memberExpected (position : Nat) : ParseError :=
  ⟨.invalidPath, s!"Expected identifier or string in JSON path at token pos {position}",
    some position⟩

def indexOutOfRange (position : Nat) : ParseError :=
  ⟨.invalidPath, s!"Array index out of range at token pos {position}", some position⟩

def negativeIndex (position : Nat) : ParseError :=
  ⟨.invalidPath, s!"Array index cannot be negative at token pos {position}", some position⟩

def indexExpected (position : Nat) : ParseError :=
  ⟨.invalidPath, s!"Expected '*' or integer in JSON path array index at token pos {position}",
    some position⟩

end ParseError

/-- A failure of any part of a statement. -/
inductive DocError where
  /-- The text of an expression. -/
  | parse (cause : ParseError)
  /-- A value that cannot take the place it is given for. -/
  | bind (text : String)
  /-- A number outside its range. -/
  | range (text : String)
  /-- Two settings of a statement that exclude each other. -/
  | incompatible (text : String)
  /-- A feature the server is too old for. -/
  | capability (text : String)
  /-- A failure the server reports, under its code. -/
  | server (code : UInt32) (text : String)
  | network (text : String)
  | io (text : String)
  | config (text : String)
  | json (text : String)
  deriving DecidableEq, Repr, Inhabited

/-! The codes of the failures a server reports. -/

namespace ServerCode

def collectionExists : UInt32 := 1050
def unknownColumn : UInt32 := 1054
def duplicateEntry : UInt32 := 1062
def invalidGroupFunction : UInt32 := 1111
def noSuchCollection : UInt32 := 1146
def lockWaitTimeout : UInt32 := 1205
def noSuchFunction : UInt32 := 1305
def parameterCount : UInt32 := 1582
def lockNoWait : UInt32 := 3572
def invalidRegexp : UInt32 := 3685
def invalidUpdate : UInt32 := 5050
def forbiddenIdUpdate : UInt32 := 5053
def missingId : UInt32 := 5115
def duplicateKey : UInt32 := 5116
def invalidGrouping : UInt32 := 5154

/-- A document whose identifier is taken. -/
def isUniqueness (code : UInt32) : Bool := code == duplicateEntry || code == duplicateKey

/-- A row lock that is held by another session. -/
def isLockFailure (code : UInt32) : Bool := code == lockWaitTimeout || code == lockNoWait

end ServerCode

namespace DocError

/-- The message without the words that name its kind. -/
def message : DocError → String
  | .parse cause => cause.message
  | .bind text | .range text | .incompatible text | .capability text | .server _ text
  | .network text | .io text | .config text | .json text => text

/-- The message as it is shown. -/
def display : DocError → String
  | .parse cause => cause.message
  | .bind text => "Bind error: " ++ text
  | .range text => "Range error: " ++ text
  | .incompatible text => "Incompatible options: " ++ text
  | .capability text => text
  | .server _ text => text
  | .network text => "Network error: " ++ text
  | .io text => "IO error: " ++ text
  | .config text => "Configuration error: " ++ text
  | .json text => "JSON error: " ++ text

/-- The short name of an error's kind. -/
def kind : DocError → String
  | .parse _ => "parse_error"
  | .bind _ => "bind_error"
  | .range _ => "range_error"
  | .incompatible _ => "incompatible_options"
  | .capability _ => "capability_error"
  | .server code _ => if ServerCode.isUniqueness code then "uniqueness_error" else "server_error"
  | .network _ => "network_error"
  | .io _ => "io_error"
  | .config _ => "config_error"
  | .json _ => "json_error"

/-- The code of an error that the server reported. -/
def serverCode? : DocError → Option UInt32
  | .server code _ => some code
  | _ => none

end DocError

end DocStore
