import DocStore.Pattern.RegexReader

/-!
# `LIKE` patterns

A pattern is matched as a regular expression.  `Like.source` is the text of that expression: a wildcard
becomes what matches the characters that it stands for, any other character is written so that it matches
itself, and the anchors around them make it the whole text that has to match.
-/

namespace DocStore

namespace Like

/-- The regular expression for a character that is not escaped. -/
def rendered (c : Char) : List Char :=
  if c = '%' then ['.', '*'] else if c = '_' then ['.'] else Regex.escaped c

/-- The regular expression for a pattern, without its anchors.  The escape character makes the
character after it literal, and is itself literal at the end. -/
def body (escape : Option Char) : List Char → List Char
  | [] => []
  | [c] => if escape = some c then Regex.escaped c else rendered c
  | c :: d :: rest =>
    if escape = some c then Regex.escaped d ++ body escape rest
    else rendered c ++ body escape (d :: rest)

/-- The text of the regular expression for a pattern.  The flag lets wildcards stand for line breaks. -/
def source (pattern : String) (escape : Option Char) : String :=
  "(?s)^" ++ String.ofList (body escape pattern.toList) ++ "$"

end Like

/-- Whether `text` is like `pattern`. -/
def likeMatch (text pattern : String) (escape : Option Char) : Except DocError Bool := do
  return (← Regex.compile (Like.source pattern escape)).isMatch text

end DocStore
