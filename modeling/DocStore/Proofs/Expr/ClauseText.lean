import DocStore.CommandLine.Perform
import DocStore.Proofs.Expr.Alias
import DocStore.Proofs.Expr.Embedding
import DocStore.Proofs.Expr.Meeting
import DocStore.Proofs.Expr.WellFormed
import Mathlib

/-!
# Clauses and their texts

Main statement: `CommandLine.printed_reads_back_iff`.  Whatever list of sort keys, of columns or of
expressions a text gives, if each expression is read back from its own text, then so is the list from
the text that is printed for it, unless a column has an alias that is no plain name, or a keyword.

In one direction, an expression is read in the list as it is read alone (`Expr.reads_within`), and the
words after it are cut and read as they are written (`Parser.run_clauseList`).  In the other, the printed
list is read up to the first alias that is not plain, and that one is read as another one
(`Column.hasPlainName_of_further`).
-/

namespace DocStore

open DocStore.Parser

variable {α : Type} {names : List String} {name : String} {nodes : List Expr} {e : Expr} {s : Surroundings}
  {ls : List Lexeme} {c c' : Cursor}

/-! ## Expressions in lists -/

namespace Surroundings

theorem merge_nil (s : Surroundings) : s.merge [] = s.known := by simp [merge]

/-- Placeholders that have the same numbers alone and in the surroundings have them for the same names. -/
theorem agrees_of_numbered (hown : NumberedFrom [] nodes) (hthere : NumberedFrom s.known nodes) :
    s.Agrees (namesAfter [] nodes) := by
  intro name hname
  rcases exists_placeholder_of_mem hname with hnil | ⟨position, hmem⟩
  · cases hnil
  · obtain ⟨-, hposition⟩ := hown.position_eq hmem
    obtain ⟨-, hposition'⟩ := hthere.position_eq hmem
    rw [← namesAfter_merge, merge_nil, ← hposition', ← hposition]

end Surroundings

namespace Expr

/-- What the text of an expression is cut into where it stands alone. -/
def ownLexemes (e : Expr) : List Lexeme :=
  match Token.lex e.text with
  | .ok tokens => Token.lexemes tokens
  | .error _ => []

theorem exists_tokens (h : parse e.text = .ok e) :
    ∃ tokens, Token.lexFrom 0 none e.text.toList = .ok tokens
      ∧ Token.lexemes tokens = e.ownLexemes := by
  obtain ⟨tokens, c', hlex, -⟩ := exists_lex_of_run h
  exact ⟨tokens, hlex, by rw [ownLexemes, Token.lex_eq, hlex]⟩

/-- An expression that is read back from its text is read back in a list, where its placeholders have
the numbers that come next. -/
theorem reads_within (h : parse e.text = .ok e) (s : Surroundings)
    (hnumbered : NumberedFrom s.known e.placeholders) :
    Parses wholeExpression ⟨e.ownLexemes ++ s.tail, s.known⟩ e
      ⟨s.tail, namesAfter s.known e.placeholders⟩ := by
  obtain ⟨tokens, c', hlex, hread⟩ := exists_lex_of_run h
  obtain ⟨e', c₁, hwhole, hend⟩ := bind_eq_ok.mp hread
  obtain ⟨_, c₂, hend, hpure⟩ := bind_eq_ok.mp hend
  obtain ⟨hrest, rfl⟩ := expectEnd_eq_ok hend
  cases hpure
  have hmet := Adds.wholeExpression [] _ _ (Cursor.hasMet_ofTokens tokens) e c' hwhole
  have hnames : c'.names = namesAfter [] e.placeholders := hmet.names
  obtain ⟨-, -, hread⟩ := Embeds.wholeExpression (s := s) _ _ _ hwhole
  rw [hnames] at hread
  have hbefore : (Cursor.ofTokens tokens).ahead.within s = ⟨e.ownLexemes ++ s.tail, s.known⟩ := by
    rw [ownLexemes, Token.lex_eq, hlex, Ahead.within]
    exact congrArg _ s.merge_nil
  have hafter : c'.ahead.within s = ⟨s.tail, namesAfter s.known e.placeholders⟩ := by
    rw [← s.merge_nil, Surroundings.namesAfter_merge, ← hnames, Ahead.within, Cursor.ahead, hrest]
    rfl
  rw [← hbefore, ← hafter]
  exact hread (Surroundings.agrees_of_numbered hmet.numbered hnumbered)

/-- An expression is the first thing that is read from a text that starts with its own. -/
theorem eq_of_wholeExpression {source : Expr} {ending : List Char}
    (h : parse e.text = .ok e) (hnumbered : NumberedFrom c.names e.placeholders)
    (hcut : Token.CutApart (e.text.toList ++ ending) c.ahead.lexemes)
    (hends : endsOperand ending = true)
    (hdelimits : ∀ tail, Token.Cut ending tail → ∀ l ∈ tail.head?, l.Delimits)
    (hread : wholeExpression c = .ok (source, c')) :
    source = e ∧ ∃ tail, Token.Cut ending tail
      ∧ c'.ahead = ⟨tail, namesAfter c.names e.placeholders⟩ := by
  obtain ⟨tokens, hlex, hown⟩ := exists_tokens h
  obtain ⟨tail, htail, hls⟩ := hcut.append hlex hends
  have hahead : c.ahead = ⟨e.ownLexemes ++ tail, c.names⟩ := by
    rw [← hown, ← hls]
    rfl
  obtain ⟨rfl, hc'⟩ :=
    (reads_within h ⟨tail, c.names, hdelimits tail htail⟩ hnumbered).eq_of_ok hahead hread
  exact ⟨rfl, tail, htail, hc'⟩

end Expr

/-! ## Lists of clauses -/

theorem toList_clauseList (text : α → String) (first : α) (more : List α) :
    (clauseList ((first :: more).map text)).toList
      = (text first).toList ++ more.flatMap fun item => ',' :: ' ' :: (text item).toList := by
  rw [clauseList, String.toList_intercalate]
  induction more generalizing first with
  | nil => simp
  | cons second more ih =>
      have hmore := ih second
      simpa using hmore

theorem endsOperand_of_head? {after : List Char} (hafter : ∀ d ∈ after.head?, d = ',') :
    endsOperand after = true := by
  cases after with
  | nil => rfl
  | cons d more =>
      obtain rfl := hafter d rfl
      rfl

/-- The text of an item is cut into these lexemes, whatever comes after it in a list. -/
def WritesItem (text : α → String) (lexemes : α → List Lexeme) (item : α) : Prop :=
  ∀ rest ls, endsOperand rest = true → Lexes rest ls →
    Token.LexesApart ((text item).toList ++ rest) (lexemes item ++ ls)

section Lists

variable {element : Parser α} {text : α → String} {lexemes : α → List Lexeme}
  {placeholders : α → List Expr} {items more : List α}

/-- What comes after an item is a comma or nothing. -/
theorem head?_further (more : List α) :
    ∀ d ∈ (more.flatMap fun item => ',' :: ' ' :: (text item).toList).head?, d = ',' := by
  cases more with
  | nil => nofun
  | cons item more =>
      rintro _ ⟨⟩
      rfl

theorem lexes_further (h : ∀ item ∈ more, WritesItem text lexemes item) :
    Lexes (more.flatMap fun item => ',' :: ' ' :: (text item).toList)
      (more.flatMap fun item => .comma :: lexemes item) := by
  induction more with
  | nil => exact Lexes.nil
  | cons item more ih =>
      obtain ⟨hitem, hmore⟩ := List.forall_mem_cons.mp h
      have hapart := hitem _ _ (endsOperand_of_head? (head?_further more)) (ih hmore)
      rw [List.flatMap_cons, List.flatMap_cons]
      exact (hapart.blank (c := ' ') rfl).symbol (c := ',') (fun _ => rfl) rfl

/-- A list of items is read back if each of them is. -/
theorem Parser.run_clauseList (hne : items ≠ [])
    (htext : ∀ item ∈ items, WritesItem text lexemes item)
    (hread : ∀ item ∈ items, ReadsItem element id lexemes placeholders item)
    (hnumbered : NumberedFrom [] (items.flatMap placeholders)) :
    (Parser.run (do let items ← commaSeparated element; expectEnd; return items)
      (clauseList (items.map text))).map Prod.fst = .ok items := by
  have hnil : Closes [] := trivial
  have hlist := Parses.commaSeparated hne hread hnil (by decide) hnumbered
  obtain ⟨first, more, rfl⟩ := List.exists_cons_of_ne_nil hne
  obtain ⟨hfirst, hmore⟩ := List.forall_mem_cons.mp htext
  have hapart := hfirst _ _ (endsOperand_of_head? (head?_further more)) (lexes_further hmore)
  obtain ⟨tokens, hlex, hls⟩ := hapart.lexes_source
  rw [← toList_clauseList] at hlex
  refine Parses.run_of_lex ((Token.lex_eq _).trans hlex) (s := ⟨[], namesAfter [] ((first :: more).flatMap placeholders)⟩) ?_
  have hahead : (Cursor.ofTokens tokens).ahead
      = ⟨Lexeme.separated ((first :: more).map lexemes) ++ [], []⟩ := by
    rw [Cursor.ahead, List.append_nil, List.map_cons, Lexeme.separated_cons, List.flatMap_map, ← hls]
    rfl
  rw [List.map_id] at hlist
  rw [hahead]
  exact hlist.bind (Parses.expectEnd.bind (Parses.pure _))

end Lists

/-- In a text that has been read, the placeholders are numbered as they come. -/
theorem Adds.numberedFrom {p : Parser α} {added : α → List Expr} {text : String} {a : α}
    (hp : Adds p added) (h : (Parser.run p text).map Prod.fst = .ok a) :
    NumberedFrom [] (added a) := by
  obtain ⟨tokens, c', -, hread⟩ := exists_lex_of_run h
  exact (hp [] _ _ (Cursor.hasMet_ofTokens tokens) a c' hread).numbered

theorem Closes.delimits (h : Closes ls) : ∀ l ∈ ls.head?, l.Delimits := by
  cases ls with
  | nil => nofun
  | cons l more =>
      rintro _ ⟨⟩
      rcases h with h | h | h | h <;> simp [Lexeme.Delimits, h]

theorem Keyword.delimits {w low : String} (h : Keyword w low) (hlow : low ∈ clauseWords) :
    (Lexeme.word w).Delimits :=
  .inr (.inr (.inr (.inr ⟨h.kind, h.lower ▸ hlow⟩)))

/-! ### Expressions -/

theorem Expr.writes (h : parse e.text = .ok e) : WritesItem Expr.text ownLexemes e := by
  intro rest ls hrest hls
  obtain ⟨tokens, hlex, hown⟩ := exists_tokens h
  rw [← hown]
  exact .append hlex hrest hls

theorem Expr.readsItem (h : parse e.text = .ok e) :
    ReadsItem wholeExpression id ownLexemes placeholders e := fun ls names hcloses hnumbered =>
  reads_within h ⟨ls, names, hcloses.delimits⟩ hnumbered

/-! ### Sort keys -/

theorem SortDirection.keyword_keyword (direction : SortDirection) :
    Keyword direction.keyword direction.name := by
  cases direction
  · exact .of_letters rfl (by decide)
  · exact .of_letters rfl (by decide)

namespace SortKey

def lexemes (key : SortKey) : List Lexeme := key.expr.ownLexemes ++ [.word key.direction.keyword]

variable {key : SortKey}

theorem writes (h : Expr.parse key.expr.text = .ok key.expr) : WritesItem text lexemes key := by
  intro rest ls hrest hls
  have hword : Lexes (key.direction.keyword.toList ++ rest) (.word key.direction.keyword :: ls) :=
    Lexes.plainName (by cases key.direction <;> rfl) (endsOperand_cases hrest).1 hls
  have happend := Expr.writes h _ _ rfl (hword.blank (c := ' ') rfl)
  simpa [text, lexemes] using happend

theorem readsItem (h : Expr.parse key.expr.text = .ok key.expr) :
    ReadsItem Parser.sortKey id lexemes (fun key => key.expr.placeholders) key := by
  intro ls names hcloses hnumbered
  obtain ⟨expr, direction⟩ := key
  have hkeyword := direction.keyword_keyword
  have hdelimits : ∀ l ∈ (Lexeme.word direction.keyword :: ls).head?, l.Delimits := by
    rintro _ ⟨⟩
    exact hkeyword.delimits (by cases direction <;> decide)
  have hexpr := Expr.reads_within h ⟨.word direction.keyword :: ls, names, hdelimits⟩ hnumbered
  show Parses Parser.sortKey ⟨expr.ownLexemes ++ [.word direction.keyword] ++ ls, names⟩ _ _
  rw [List.append_assoc]
  refine hexpr.bind ?_
  cases direction with
  | asc =>
      refine Parses.bind_false (Parses.acceptWord_false (hkeyword.isWord_of_ne (by decide))) ?_
      exact (Parses.acceptWord hkeyword.isWord_self).bind (Parses.pure _)
  | desc => exact Parses.bind_true (Parses.acceptWord hkeyword.isWord_self) (Parses.pure _)

end SortKey

/-! ### Columns -/

theorem keyword_as : Keyword "AS" "as" := .of_letters rfl (by decide)

theorem Parses.aliasName (ls : List Lexeme) (names : List String) (name : String) :
    Parses Parser.aliasName ⟨⟨.identifier, name⟩ :: ls, names⟩ name ⟨ls, names⟩ := by
  refine peek?_bind fun token hkind htext => ?_
  have hkind : token.kind = .identifier := hkind
  have htext : token.text = name := htext
  simp only [hkind, htext]
  exact advance.bind (pure _)

namespace Column

/-- If the column has an alias, then it is written as an identifier is. -/
def HasPlainName (column : Column) : Prop :=
  ∀ name, column.shownAs = some name → Segment.isPlainName name = true ∧ isKeyword name = false

/-- Only where no member starts its source does a column go without a name. -/
def IsNamed (column : Column) : Prop :=
  column.shownAs = none → ∀ path, column.source = .field path → path.firstMember? = none

/-- What stands after the source of a column. -/
def nameLexemes (column : Column) : List Lexeme :=
  match column.shownAs with
  | some name => [.word "AS", .word name]
  | none => []

def lexemes (column : Column) : List Lexeme := column.source.ownLexemes ++ column.nameLexemes

variable {column : Column} {columns more : List Column} {after : List Char} {bound : Nat}

theorem isNamed_of_column : Yields Parser.column IsNamed := by
  refine Yields.wholeExpression.bind fun source _ => .ifWord ?_ ?_
  · exact Yields.aliasName.bind fun name _ => .pure nofun
  · split
    · refine .pure fun hnone other heq => ?_
      cases heq
      exact hnone
    · next hfield => exact .pure fun _ path heq => absurd heq (hfield path)

theorem writes (h : Expr.parse column.source.text = .ok column.source) (hname : column.HasPlainName) :
    WritesItem text lexemes column := by
  intro rest ls hrest hls
  obtain ⟨source, shownAs⟩ := column
  cases shownAs with
  | none => simpa [text, lexemes, nameLexemes] using Expr.writes h rest ls hrest hls
  | some name =>
      have hplain := (hname name rfl).1
      have hword := Lexes.plainName hplain (endsOperand_cases hrest).1 hls
      have has := Lexes.keyword (w := "AS") rfl hword
      simpa [text, lexemes, nameLexemes] using Expr.writes h _ _ rfl has

theorem readsItem (h : Expr.parse column.source.text = .ok column.source)
    (hname : column.HasPlainName) (hnamed : column.IsNamed) :
    ReadsItem Parser.column id lexemes (fun column => column.source.placeholders) column := by
  intro ls names hcloses hnumbered
  obtain ⟨source, shownAs⟩ := column
  cases shownAs with
  | none =>
      have hsource := Expr.reads_within h ⟨ls, names, hcloses.delimits⟩ hnumbered
      show Parses Parser.column ⟨source.ownLexemes ++ [] ++ ls, names⟩ _ _
      rw [List.append_nil]
      refine hsource.bind (Parses.bind_false (Parses.acceptWord_false (hcloses.isWordAt _)) ?_)
      replace hnamed : ∀ path, source = .field path → path.firstMember? = none := hnamed rfl
      dsimp only [id] at hnamed ⊢
      split
      · next path =>
          rw [hnamed path rfl]
          exact Parses.pure _
      · exact Parses.pure _
  | some name =>
      obtain ⟨hplain, hkeyword⟩ := hname name rfl
      have hdelimits : ∀ l ∈ (Lexeme.word "AS" :: .word name :: ls).head?, l.Delimits := by
        rintro _ ⟨⟩
        exact keyword_as.delimits (by decide)
      have hsource := Expr.reads_within h ⟨.word "AS" :: .word name :: ls, names, hdelimits⟩ hnumbered
      show Parses Parser.column ⟨source.ownLexemes ++ [.word "AS", .word name] ++ ls, names⟩ _ _
      rw [List.append_assoc]
      refine hsource.bind (Parses.bind_true (Parses.acceptWord keyword_as.isWord_self) ?_)
      rw [Lexeme.word_of_not_keyword hkeyword]
      exact (Parses.aliasName ls _ name).bind (Parses.pure _)

/-! ### Aliases that are not plain -/

/-- What comes after a column closes it. -/
theorem closes_of_cut {tail : List Lexeme} (hafter : ∀ d ∈ after.head?, d = ',')
    (h : Token.Cut after tail) : Closes tail := by
  cases after with
  | nil =>
      rw [h.nil]
      trivial
  | cons d more =>
      obtain rfl := hafter d rfl
      obtain ⟨ls, -, rfl⟩ := h.comma
      exact .inl rfl

/-- Behind a column without alias, what comes after its text is ahead. -/
theorem cut_of_unnamed {source : Expr} (h : Expr.parse source.text = .ok source)
    (hnumbered : NumberedFrom c.names source.placeholders)
    (hcut : Token.CutApart (source.text.toList ++ after) c.ahead.lexemes)
    (hafter : ∀ d ∈ after.head?, d = ',') (hread : Parser.column c = .ok (⟨source, none⟩, c')) :
    Token.Cut after c'.ahead.lexemes ∧ c'.names = namesAfter c.names source.placeholders := by
  obtain ⟨source', c₁, hsource, hread⟩ := bind_eq_ok.mp hread
  obtain ⟨found, c₂, has, hname⟩ := bind_eq_ok.mp hread
  obtain ⟨rfl, tail, htail, hc₁⟩ := Expr.eq_of_wholeExpression h hnumbered hcut
    (endsOperand_of_head? hafter) (fun tail htail => (closes_of_cut hafter htail).delimits) hsource
  have hword : Ahead.isWordAt ⟨tail, namesAfter c.names source'.placeholders⟩ 0 "as" = false :=
    (closes_of_cut hafter htail).isWordAt "as"
  obtain ⟨rfl, hc₂⟩ := (Parses.acceptWord_false hword).eq_of_ok hc₁ has
  have hc' : c' = c₂ := by
    rw [if_neg Bool.false_ne_true] at hname
    split at hname
    · exact (Prod.mk.inj (Except.ok.inj hname)).2.symm
    · exact (Prod.mk.inj (Except.ok.inj hname)).2.symm
  rw [hc', hc₂]
  exact ⟨htail, congrArg Ahead.names hc₂⟩

/-- Where a column is read from its own text, its alias is plain. -/
theorem plain_of_named {source : Expr} (h : Expr.parse source.text = .ok source)
    (hnumbered : NumberedFrom c.names source.placeholders)
    (hcut : Token.CutApart (source.text.toList ++ ' ' :: ("AS".toList ++ ' ' :: (name.toList ++ after)))
      c.ahead.lexemes)
    (hafter : ∀ d ∈ after.head?, d = ',')
    (hread : Parser.column c = .ok (⟨source, some name⟩, c')) :
    (Segment.isPlainName name = true ∧ isKeyword name = false) ∧ Token.Cut after c'.ahead.lexemes
      ∧ c'.names = namesAfter c.names source.placeholders := by
  -- However the text after the source has been cut, the word comes first.
  have hword : ∀ tail, Token.Cut (' ' :: ("AS".toList ++ ' ' :: (name.toList ++ after))) tail →
      ∃ ls, Token.Cut (name.toList ++ after) ls ∧ tail = .word "AS" :: ls := by
    intro tail htail
    obtain ⟨ls, hls, rfl⟩ := (htail.blank rfl).word rfl rfl
    exact ⟨ls, hls.blank rfl, rfl⟩
  obtain ⟨source', c₁, hsource, hread⟩ := bind_eq_ok.mp hread
  obtain ⟨found, c₂, has, hread⟩ := bind_eq_ok.mp hread
  obtain ⟨rfl, tail, htail, hc₁⟩ := Expr.eq_of_wholeExpression h hnumbered hcut rfl
    (fun tail htail => by
      obtain ⟨ls, -, rfl⟩ := hword tail htail
      rintro _ ⟨⟩
      exact keyword_as.delimits (by decide)) hsource
  obtain ⟨ls, hls, rfl⟩ := hword tail htail
  obtain ⟨rfl, hc₂⟩ := (Parses.acceptWord keyword_as.isWord_self).eq_of_ok hc₁ has
  obtain ⟨name', c₃, halias, hpure⟩ := bind_eq_ok.mp hread
  cases hpure
  have hls₂ : c₂.ahead.lexemes = ls := congrArg Ahead.lexemes hc₂
  rw [← hls₂] at hls
  obtain ⟨hplain, hafter⟩ := plain_of_aliasName hls hafter halias
  exact ⟨hplain, hafter,
    (Passes.aliasName c₂ name c' halias).names.trans (congrArg Ahead.names hc₂)⟩

theorem hasPlainName_of_column (h : Expr.parse column.source.text = .ok column.source)
    (hnumbered : NumberedFrom c.names column.source.placeholders)
    (hcut : Token.CutApart (column.text.toList ++ after) c.ahead.lexemes)
    (hafter : ∀ d ∈ after.head?, d = ',') (hread : Parser.column c = .ok (column, c')) :
    column.HasPlainName ∧ Token.Cut after c'.ahead.lexemes
      ∧ c'.names = namesAfter c.names column.source.placeholders := by
  obtain ⟨source, shownAs⟩ := column
  cases shownAs with
  | none => exact ⟨nofun, cut_of_unnamed h hnumbered hcut hafter hread⟩
  | some name =>
      have htext : (text ⟨source, some name⟩).toList ++ after
          = source.text.toList ++ ' ' :: ("AS".toList ++ ' ' :: (name.toList ++ after)) := by
        simp [text]
      rw [htext] at hcut
      obtain ⟨hplain, hrest⟩ := plain_of_named h hnumbered hcut hafter hread
      refine ⟨?_, hrest⟩
      rintro _ ⟨⟩
      exact hplain

/-- Every further column comes after a comma. -/
theorem hasPlainName_of_further
    (h : ∀ column ∈ more, Expr.parse column.source.text = .ok column.source)
    (hnumbered : NumberedFrom c.names (more.flatMap fun column => column.source.placeholders))
    (hcut : Token.Cut (more.flatMap fun column => ',' :: ' ' :: column.text.toList)
      c.ahead.lexemes)
    (hread : commaSeparated.further Parser.column bound c = .ok (more, c')) :
    ∀ column ∈ more, column.HasPlainName := by
  induction more generalizing bound c with
  | nil => exact nofun
  | cons column more ih =>
      cases bound with
      | zero => cases hread
      | succ bound =>
          obtain ⟨hcolumn, hmore⟩ := List.forall_mem_cons.mp h
          rw [List.flatMap_cons, numberedFrom_append] at hnumbered
          rw [List.flatMap_cons] at hcut
          obtain ⟨ls, hapart, hls⟩ := hcut.comma
          obtain ⟨found, c₁, hcomma, hread⟩ := bind_eq_ok.mp hread
          have hahead : c.ahead = ⟨.comma :: ls, c.names⟩ := by
            rw [← hls]
            rfl
          obtain ⟨rfl, hc₁⟩ := (Parses.accept rfl).eq_of_ok hahead hcomma
          obtain ⟨item, c₂, hitem, hread⟩ := bind_eq_ok.mp hread
          obtain ⟨others, c₃, hothers, hpure⟩ := bind_eq_ok.mp hread
          cases hpure
          have hls₁ : c₁.ahead.lexemes = ls := congrArg Ahead.lexemes hc₁
          have hnames : c₁.names = c.names := congrArg Ahead.names hc₁
          -- The comma has been passed, and the column is read from its own text.
          rw [← hls₁] at hapart
          rw [← hnames] at hnumbered
          obtain ⟨hplain, hrest, hnames⟩ := hasPlainName_of_column hcolumn hnumbered.1
            (hapart.blank rfl) (head?_further more) hitem
          rw [← hnames] at hnumbered
          exact List.forall_mem_cons.mpr ⟨hplain, ih hmore hnumbered.2 hrest hothers⟩

/-- A list of columns that is read back has plain aliases only. -/
theorem hasPlainName_of_parseList (hne : columns ≠ [])
    (h : ∀ column ∈ columns, Expr.parse column.source.text = .ok column.source)
    (hnumbered : NumberedFrom [] (columns.flatMap fun column => column.source.placeholders))
    (hread : parseList (clauseList (columns.map text)) = .ok columns) :
    ∀ column ∈ columns, column.HasPlainName := by
  obtain ⟨first, more, rfl⟩ := List.exists_cons_of_ne_nil hne
  obtain ⟨hfirst, hmore⟩ := List.forall_mem_cons.mp h
  rw [List.flatMap_cons, numberedFrom_append] at hnumbered
  obtain ⟨tokens, c', hlex, hread⟩ := exists_lex_of_run hread
  obtain ⟨columns, c₁, hread, hend⟩ := bind_eq_ok.mp hread
  obtain ⟨_, c₂, -, hpure⟩ := bind_eq_ok.mp hend
  cases hpure
  obtain ⟨column, c₃, hcolumn, hread⟩ := bind_eq_ok.mp hread
  obtain ⟨bound, c₄, hbound, hread⟩ := bind_eq_ok.mp hread
  obtain ⟨others, c₅, hothers, hpure⟩ := bind_eq_ok.mp hread
  cases hbound
  cases hpure
  have hcut : Token.CutApart (first.text.toList
      ++ more.flatMap fun column => ',' :: ' ' :: column.text.toList)
      (Cursor.ofTokens tokens).ahead.lexemes := by
    rw [← toList_clauseList]
    exact ⟨0, none, tokens, fun _ => rfl, hlex, rfl⟩
  obtain ⟨hplain, hrest, hnames⟩ :=
    hasPlainName_of_column hfirst hnumbered.1 hcut (head?_further more) hcolumn
  refine List.forall_mem_cons.mpr ⟨hplain, hasPlainName_of_further hmore ?_ hrest hothers⟩
  rw [hnames]
  exact hnumbered.2

end Column

/-! ## What the program prints -/

namespace CommandLine

variable {text : String}

theorem sort_reads_back {keys : List SortKey} (h : SortKey.parseList text = .ok keys)
    (hown : ∀ key ∈ keys, Expr.parse key.expr.text = .ok key.expr) :
    SortKey.parseList (clauseList (keys.map SortKey.text)) = .ok keys :=
  run_clauseList (ne_nil_of_parseList h) (fun key hkey => SortKey.writes (hown key hkey))
    (fun key hkey => SortKey.readsItem (hown key hkey))
    ((Adds.toEnd Adds.sortKey.commaSeparated).numberedFrom h)

theorem group_reads_back {es : List Expr} (h : Expr.parseList text = .ok es)
    (hown : ∀ e ∈ es, Expr.parse e.text = .ok e) :
    Expr.parseList (clauseList (es.map Expr.text)) = .ok es :=
  run_clauseList (Expr.ne_nil_of_parseList h) (fun e he => Expr.writes (hown e he))
    (fun e he => Expr.readsItem (hown e he))
    ((Adds.toEnd Adds.wholeExpression.commaSeparated).numberedFrom h)

theorem projection_reads_back_iff {columns : List Column} (h : Column.parseList text = .ok columns)
    (hown : ∀ column ∈ columns, Expr.parse column.source.text = .ok column.source) :
    Column.parseList (clauseList (columns.map Column.text)) = .ok columns
      ↔ ∀ column ∈ columns, column.HasPlainName := by
  have hne := ne_nil_of_parseList h
  have hnumbered := (Adds.toEnd Adds.column.commaSeparated).numberedFrom h
  have hnamed := (Yields.listToEnd Column.isNamed_of_column).run h
  constructor
  · exact Column.hasPlainName_of_parseList hne hown hnumbered
  · intro hplain
    exact run_clauseList hne
      (fun column hmem => Column.writes (hown column hmem) (hplain column hmem))
      (fun column hmem => Column.readsItem (hown column hmem) (hplain column hmem)
        (hnamed column hmem)) hnumbered

/-- What is printed for a list is read back as the list, if the expressions in it are read back from
their texts: for sort keys and for expressions always, and for columns just if no alias is a keyword or
has characters that a plain name has not. -/
theorem printed_reads_back_iff (text : String) :
    (∀ keys, SortKey.parseList text = .ok keys →
        (∀ key ∈ keys, Expr.parse key.expr.text = .ok key.expr) →
        ∃ printed, render text .sort false = .ok printed ∧ SortKey.parseList printed = .ok keys)
      ∧ (∀ es, Expr.parseList text = .ok es → (∀ e ∈ es, Expr.parse e.text = .ok e) →
        ∃ printed, render text .group false = .ok printed ∧ Expr.parseList printed = .ok es)
      ∧ ∀ columns, Column.parseList text = .ok columns →
        (∀ column ∈ columns, Expr.parse column.source.text = .ok column.source) →
        ∃ printed, render text .projection false = .ok printed
          ∧ (Column.parseList printed = .ok columns ↔ ∀ column ∈ columns, column.HasPlainName) := by
  refine ⟨fun keys h hown => ?_, fun es h hown => ?_, fun columns h hown => ?_⟩
  · exact ⟨_, by rw [render, h]; rfl, sort_reads_back h hown⟩
  · exact ⟨_, by rw [render, h]; rfl, group_reads_back h hown⟩
  · exact ⟨_, by rw [render, h]; rfl, projection_reads_back_iff h hown⟩

/-- Lists with a placeholder, with a direction left out, and with an alias between backticks. -/
theorem printed_reads_back_iff_samples :
    (∃ printed, render "a desc, :n" .sort false = .ok printed ∧ SortKey.parseList printed
        = .ok [⟨.field (.ofMember "a"), .desc⟩, ⟨.placeholder "n" 0, .asc⟩])
      ∧ (∃ printed, render ":n, a" .group false = .ok printed ∧ Expr.parseList printed
        = .ok [.placeholder "n" 0, .field (.ofMember "a")])
      ∧ ∃ printed, render "a, :n as `N`" .projection false = .ok printed ∧ Column.parseList printed
        = .ok [⟨.field (.ofMember "a"), some "a"⟩, ⟨.placeholder "n" 0, some "N"⟩] := by
  have hfield : Expr.parse (Expr.field (.ofMember "a")).text = .ok (.field (.ofMember "a")) := by cbv
  have hplaceholder : Expr.parse (Expr.placeholder "n" 0).text = .ok (.placeholder "n" 0) := by cbv
  refine ⟨?_, ?_, ?_⟩
  · refine (printed_reads_back_iff "a desc, :n").1 _ (by cbv) ?_
    exact List.forall_mem_cons.mpr ⟨hfield, List.forall_mem_singleton.mpr hplaceholder⟩
  · refine (printed_reads_back_iff ":n, a").2.1 _ (by cbv) ?_
    exact List.forall_mem_cons.mpr ⟨hplaceholder, List.forall_mem_singleton.mpr hfield⟩
  · obtain ⟨printed, hprinted, hback⟩ := (printed_reads_back_iff "a, :n as `N`").2.2
      [⟨.field (.ofMember "a"), some "a"⟩, ⟨.placeholder "n" 0, some "N"⟩]
      (by rw [Column.parseList, Parser.run, Token.lex_eq]; cbv)
      (List.forall_mem_cons.mpr ⟨hfield, List.forall_mem_singleton.mpr hplaceholder⟩)
    refine ⟨printed, hprinted, hback.mpr ?_⟩
    refine List.forall_mem_cons.mpr ⟨?_, List.forall_mem_singleton.mpr ?_⟩
    · rintro _ ⟨⟩
      exact ⟨by decide, by cbv⟩
    · rintro _ ⟨⟩
      exact ⟨by decide, by cbv⟩

/-- A member that is a keyword names its column, and is printed after `AS` where no keyword can stand. -/
theorem printed_keyword_alias :
    Column.parseList "$.in" = .ok [⟨.field (.ofMember "in"), some "in"⟩]
      ∧ Expr.parse (Expr.field (.ofMember "in")).text = .ok (.field (.ofMember "in"))
      ∧ render "$.in" .projection false = .ok "$.in AS in"
      ∧ Column.parseList "$.in AS in" = .error (.unexpected "in" 4) := by
  refine ⟨?_, ?_, ?_, ?_⟩ <;> cbv

end CommandLine

end DocStore
