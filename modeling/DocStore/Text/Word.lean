import DocStore.Text.Case
import DocStore.Text.WordTable

/-!
# Words and digits

The classes of characters that patterns know by name.
-/

namespace DocStore.Text

def isWord (c : Char) : Bool := inRanges WordTable.wordRanges c

def isDigit (c : Char) : Bool := inRanges WordTable.digitRanges c

end DocStore.Text
