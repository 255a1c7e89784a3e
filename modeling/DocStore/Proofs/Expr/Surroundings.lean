import DocStore.Proofs.Expr.Closing
import DocStore.Proofs.Expr.Predicate

/-!
# Where a text stands

An expression that is an element of a list has text after it, and the names of placeholders may have
been met before it.  Its `Surroundings` are both: what comes after, which starts with nothing that an
expression could go on with, and the names met before.

Read in surroundings, a placeholder may get another number than it has where its text stands alone.
`Surroundings.Agrees` says of names that they get the same.
-/

namespace DocStore

open DocStore.Parser

/-- The words that may stand after the expression of a sort key or of a column. -/
def clauseWords : List String := ["as", "asc", "desc"]

/-- What may stand after an element of a list: a comma, a closing delimiter, or a word of a clause. -/
def Lexeme.Delimits (l : Lexeme) : Prop :=
  l.kind = .comma ∨ l.kind = .rightParen ∨ l.kind = .rightBracket ∨ l.kind = .rightBrace
    ∨ (l.kind = .keyword ∧ l.text.toLower ∈ clauseWords)

/-- The end of a source, and the kinds of what may stand there if the source is put into a list. -/
def TokenKind.isEnd : TokenKind → Bool
  | .eof | .comma | .rightParen | .rightBracket | .rightBrace | .keyword => true
  | _ => false

namespace Lexeme.Delimits

variable {l : Lexeme} {word : String}

theorem isEnd (h : l.Delimits) : l.kind.isEnd = true := by
  rcases h with h | h | h | h | ⟨h, -⟩ <;> rw [h] <;> rfl

theorem isWord (h : l.Delimits) (hword : word ∉ clauseWords) : l.token.isWord word = false := by
  rcases h with h | h | h | h | ⟨h, hmem⟩
  · exact isWord_of_kind (by rw [h]; decide)
  · exact isWord_of_kind (by rw [h]; decide)
  · exact isWord_of_kind (by rw [h]; decide)
  · exact isWord_of_kind (by rw [h]; decide)
  · have hne : l.text.toLower ≠ word := by
      rintro rfl
      exact hword hmem
    show (l.kind == .keyword && l.text.toLower == word) = false
    rw [beq_eq_false_iff_ne.mpr hne, Bool.and_false]

/-- No operator is a delimiter. -/
theorem binaryOp? (h : l.Delimits) : Parser.binaryOp? l.token = none := by
  have hkind : l.token.kind = l.kind := rfl
  have hword : ∀ word, word ∉ clauseWords → l.token.isWord word = false := fun _ => h.isWord
  rcases h with h | h | h | h | ⟨h, -⟩
    <;> simp [Parser.binaryOp?, hkind, h, hword "or" (by decide), hword "and" (by decide),
      hword "div" (by decide)]

theorem startsStep (h : l.Delimits) : l.kind.startsStep = false := by
  rcases h with h | h | h | h | ⟨h, -⟩ <;> rw [h] <;> rfl

end Lexeme.Delimits

/-- What comes after a text, and the names met before it. -/
structure Surroundings where
  tail : List Lexeme
  known : List String
  delimits : ∀ l ∈ tail.head?, l.Delimits

namespace Surroundings

variable {s : Surroundings} {names later : List String} {name word : String} {least : Nat}

/-! ## What comes after -/

theorem isWordAt_tail (s : Surroundings) (hword : word ∉ clauseWords) :
    Ahead.isWordAt ⟨s.tail, names⟩ 0 word = false := by
  obtain ⟨tail, known, hdelimits⟩ := s
  cases tail with
  | nil => rfl
  | cons l more => exact (hdelimits l rfl).isWord hword

theorem isEnd_tail (s : Surroundings) : (Ahead.kindAt ⟨s.tail, names⟩ 0).isEnd = true := by
  obtain ⟨tail, known, hdelimits⟩ := s
  cases tail with
  | nil => rfl
  | cons l more => exact (hdelimits l rfl).isEnd

theorem endsPath_tail (s : Surroundings) : Ahead.EndsPath ⟨s.tail, names⟩ := by
  obtain ⟨tail, known, hdelimits⟩ := s
  cases tail with
  | nil => rfl
  | cons l more => exact (hdelimits l rfl).startsStep

theorem stops_tail (s : Surroundings) : Stops least ⟨s.tail, names⟩ := by
  have hword : ∀ word, word ∉ clauseWords →
      Cursor.isWordAt (Ahead.cursor ⟨s.tail, names⟩) 0 word = false := fun _ => s.isWordAt_tail
  refine ⟨fun hat => ?_, fun op hop => ?_⟩
  · simp [atPredicate, predicateWords, hword "not" (by decide), hword "is" (by decide),
      hword "in" (by decide), hword "overlaps" (by decide), hword "like" (by decide),
      hword "between" (by decide), hword "regexp" (by decide)] at hat
  · obtain ⟨tail, known, hdelimits⟩ := s
    cases tail with
    | nil => cases hop
    | cons l more =>
        have hop : binaryOp? l.token = some op := hop
        rw [(hdelimits l rfl).binaryOp?] at hop
        cases hop

/-! ## Names -/

/-- The names met once a text has been read in the surroundings which alone has these. -/
def merge (s : Surroundings) (names : List String) : List String :=
  s.known ++ names.filter fun name => !s.known.contains name

theorem mem_merge : name ∈ s.merge names ↔ name ∈ s.known ∨ name ∈ names := by
  by_cases h : name ∈ s.known <;> simp [merge, h]

theorem meet_merge (name : String) : meet (s.merge names) name = s.merge (meet names name) := by
  by_cases hmem : name ∈ names
  · rw [meet_of_mem hmem, meet_of_mem (mem_merge.mpr (.inr hmem))]
  · rw [meet_of_not_mem hmem]
    by_cases hknown : name ∈ s.known
    · rw [meet_of_mem (mem_merge.mpr (.inl hknown))]
      simp [merge, hknown]
    · rw [meet_of_not_mem (mt mem_merge.mp (not_or.mpr ⟨hknown, hmem⟩))]
      simp [merge, hknown]

theorem namesAfter_merge (nodes : List Expr) :
    namesAfter (s.merge names) nodes = s.merge (namesAfter names nodes) := by
  rw [namesAfter, namesAfter]
  induction nodes.filterMap Expr.placeholderName? generalizing names with
  | nil => rfl
  | cons name rest ih => rw [List.foldl_cons, List.foldl_cons, meet_merge, ih]

theorem prefix_merge (h : names <+: later) : s.merge names <+: s.merge later :=
  (List.prefix_append_right_inj _).mpr (h.filter _)

/-- The names get the numbers that they have where the text stands alone. -/
def Agrees (s : Surroundings) (names : List String) : Prop :=
  ∀ name ∈ names, UInt32.ofNat ((s.merge names).idxOf name) = UInt32.ofNat (names.idxOf name)

theorem Agrees.earlier (h : s.Agrees later) (hmore : names <+: later) : s.Agrees names := by
  intro name hname
  have hlater := h name (hmore.mem hname)
  obtain ⟨more, rfl⟩ := hmore
  obtain ⟨others, hothers⟩ := prefix_merge (s := s) (List.prefix_append names more)
  rwa [← hothers, List.idxOf_append_of_mem (mem_merge.mpr (.inr hname)),
    List.idxOf_append_of_mem hname] at hlater

end Surroundings

namespace Ahead

/-- What is ahead where the text stands in surroundings. -/
def within (a : Ahead) (s : Surroundings) : Ahead := ⟨a.lexemes ++ s.tail, s.merge a.names⟩

end Ahead

namespace Closer

variable {closer : Closer}

end Closer

end DocStore
