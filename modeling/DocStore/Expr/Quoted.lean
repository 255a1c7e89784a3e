/-!
# Quoted text in expressions

Strings stand between single or double quotes, names between backticks.  The text between the quotes
shows a quote of the same kind by doubling it; a string has escapes with a backslash as well.

What a literal stands for is read off its text, quotes included (`unescape`, `unquote`).
-/

namespace DocStore.Quoted

def backtick : Char := Char.ofNat 0x60

/-- The character that a backslash and `c` stand for. -/
def escaped (c : Char) : Char :=
  match c with
  | 'n' => '\n'
  | 't' => '\t'
  | 'r' => '\r'
  | '0' => Char.ofNat 0
  | 'b' => Char.ofNat 8
  | 'Z' => Char.ofNat 0x1A
  | other => other

/-- The characters that the text between two quotes stands for. -/
def decodeString (quote : Char) : List Char → List Char
  | [] => []
  | [c] => [c]
  | c :: d :: rest =>
    if c = '\\' then escaped d :: decodeString quote rest
    else if c = quote ∧ d = quote then quote :: decodeString quote rest
    else c :: decodeString quote (d :: rest)

/-- The characters that the text between two backticks stands for. -/
def decodeName : List Char → List Char
  | [] => []
  | [c] => [c]
  | c :: d :: rest =>
    if c = backtick ∧ d = backtick then backtick :: decodeName rest
    else c :: decodeName (d :: rest)

/-- What stands between the first and the last character of a literal. -/
def body (literal : List Char) : List Char := (literal.drop 1).dropLast

/-- The text of a string literal, given with its quotes. -/
def unescape (literal : String) : String :=
  String.ofList (decodeString (literal.toList.headD '"') (body literal.toList))

/-- The name of a quoted identifier, given with its backticks. -/
def unquote (literal : String) : String :=
  String.ofList (decodeName (body literal.toList))

end DocStore.Quoted
