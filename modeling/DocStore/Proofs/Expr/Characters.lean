import DocStore.Expr.Lexer

/-!
# Tokens in characters

The tokens of a text, as one would tell them without regard to bytes: a text is a list of characters,
and a token a number of them.  Offsets count bytes still.  That `Token.lex`, which goes over the bytes,
finds just these tokens is `Token.lex_eq`.
-/

namespace DocStore

namespace Quoted

/-- The number of characters up to and with the closing quote, the opening one being taken.  A
backslash hides the character after it. -/
def stringLength? (quote : Char) : List Char → Option Nat
  | [] => none
  | [c] => if c = quote then some 1 else none
  | c :: d :: rest =>
    if c = '\\' then (stringLength? quote rest).map (· + 2)
    else if c = quote then
      if d = quote then (stringLength? quote rest).map (· + 2) else some 1
    else (stringLength? quote (d :: rest)).map (· + 1)

/-- The number of characters up to and with the closing backtick, the opening one being taken. -/
def nameLength? : List Char → Option Nat
  | [] => none
  | [c] => if c = backtick then some 1 else none
  | c :: d :: rest =>
    if c = backtick then
      if d = backtick then (nameLength? rest).map (· + 2) else some 1
    else (nameLength? (d :: rest)).map (· + 1)

end Quoted

namespace Token

/-- The bytes a run of characters takes. -/
def byteLength (cs : List Char) : Nat := cs.foldl (fun n c => n + c.utf8Size) 0

def startsWithDigit : List Char → Bool
  | c :: _ => c.isDigit
  | [] => false

/-! ### The length of a token

Each function is given what follows the characters that are known to belong to the token, and
counts the further ones that do. -/

def digitRun (cs : List Char) : Nat := (cs.takeWhile Char.isDigit).length

def nameRun (cs : List Char) : Nat := (cs.takeWhile Segment.isNameChar).length

/-- A point and digits after it. -/
def fractionLength : List Char → Nat
  | '.' :: cs => if startsWithDigit cs then 1 + digitRun cs else 0
  | _ => 0

/-- The length of the sign that an exponent starts with. -/
def signLength : List Char → Nat
  | '+' :: _ | '-' :: _ => 1
  | _ => 0

/-- An exponent mark, a sign if there is one, and digits. -/
def exponentLength : List Char → Nat
  | c :: cs =>
    if c = 'e' ∨ c = 'E' then
      if startsWithDigit (cs.drop (signLength cs)) then
        1 + signLength cs + digitRun (cs.drop (signLength cs))
      else 0
    else 0
  | [] => 0

/-- The kind and length of a number that starts here. -/
def number (cs : List Char) : TokenKind × Nat :=
  let whole := digitRun cs
  let fraction := fractionLength (cs.drop whole)
  let exponent := exponentLength (cs.drop (whole + fraction))
  (if fraction + exponent = 0 then .integer else .float, whole + fraction + exponent)

/-- The kind and length of the token that starts with `c`, at a byte offset.  A point is part of a
number where a digit follows it and it is no step of a path. -/
def scan (offset : Nat) (afterStep : Bool) (c : Char) (rest : List Char) :
    Except ParseError (TokenKind × Nat) :=
  if Segment.isNameStart c then
    let length := 1 + nameRun rest
    let word := String.ofList ((c :: rest).take length)
    .ok (if isKeyword word then .keyword else .identifier, length)
  else if c.isDigit || (c = '.' && startsWithDigit rest && !afterStep) then .ok (number (c :: rest))
  else if c = '"' ∨ c = '\'' then
    match Quoted.stringLength? c rest with
    | some length => .ok (.stringLiteral, 1 + length)
    | none => .error (.unterminatedString offset)
  else if c = Quoted.backtick then
    match Quoted.nameLength? rest with
    | some length => .ok (.quotedIdentifier, 1 + length)
    | none => .error (.unterminatedName offset)
  else
    match operator? c rest.head? with
    | some found => .ok found
    | none => .error (.invalidCharacter c offset)

/-- The tokens of `cs`, which starts at a byte offset right after `last`.  Every step takes at
least one character. -/
def lexFrom (offset : Nat) (last : Option Token) : List Char → Except ParseError (List Token)
  | [] => .ok [⟨.eof, offset, offset, ""⟩]
  | c :: rest =>
    if isBlank c then lexFrom (offset + c.utf8Size) last rest
    else
      match scan offset (stepEndsAt offset last) c rest with
      | .error e => .error e
      | .ok (kind, length) =>
        let lexeme := c :: rest.take (length - 1)
        let stop := offset + byteLength lexeme
        let token : Token := ⟨kind, offset, stop, String.ofList lexeme⟩
        match lexFrom stop (some token) (rest.drop (length - 1)) with
        | .error e => .error e
        | .ok tokens => .ok (token :: tokens)
termination_by cs => cs.length
decreasing_by all_goals grind

end Token

end DocStore
