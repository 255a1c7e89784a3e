import DocStore.Proofs.Expr.Precedence

/-!
# Reading operands

The operands that no parentheses stand around: literals, fields, placeholders, operands with a sign,
calls, arrays and objects.  For each of them there is one lemma that says that it is read, if its
parts are.
-/

namespace DocStore

open DocStore.Parser

variable {s s' : Ahead} {l : Lexeme} {ls more : List Lexeme} {names : List String} {inner : Sub}
  {depth : Nat} {e operand : Expr} {token : Token} {word : String}

theorem Token.isWord_eq (hkind : token.kind = l.kind) (htext : token.text = l.text)
    (word : String) : token.isWord word = l.token.isWord word := by
  obtain ⟨kind, start, stop, text⟩ := token
  subst hkind htext
  rfl

theorem Lexeme.isWord_of_kind (h : l.kind ≠ .keyword) : l.token.isWord word = false := by
  simp [Token.isWord, Lexeme.token, h]

/-! ## Nodes without a name -/

theorem namesAfter_cons_of_none {node : Expr} (h : node.placeholderName? = none)
    (nodes : List Expr) : namesAfter names (node :: nodes) = namesAfter names nodes := by
  rw [namesAfter_cons, namesAfter_of_none h]

theorem numberedFrom_tail {node : Expr} {nodes : List Expr} (h : node.placeholderName? = none)
    (hnumbered : NumberedFrom names (node :: nodes)) : NumberedFrom names nodes := by
  have htail := hnumbered.2
  rwa [namesAfter_of_none h] at htail

/-! ## How operands start -/

/-- Whether a token is a sign where an operand is expected. -/
def TokenKind.isSign : TokenKind → Bool
  | .minus | .plus | .bang | .tilde => true
  | _ => false

/-- Whether a token ends an operand or stands for one only as the argument of a call. -/
def TokenKind.isNoOperand : TokenKind → Bool
  | .star | .rightParen | .rightBracket | .rightBrace => true
  | _ => false


/-- What the first lexeme of an operand is not. -/
structure Opens (e : Expr) (l : Lexeme) : Prop where
  operand : l.kind.isNoOperand = false
  notWord : l.token.isWord "not" = false
  unsigned : e.isUnsigned = false → l.kind ≠ .integer ∧ l.kind ≠ .float
  grouped : e.isGrouped = false → l.kind ≠ .leftParen ∧ l.kind ≠ .leftBracket

theorem Opens.kind_ne {kind : TokenKind} (h : Opens e l) (hkind : kind.isNoOperand = true) :
    l.kind ≠ kind := by
  rintro rfl
  rw [h.operand] at hkind
  cases hkind

/-- The tokens, other than keywords, that an operand may start with if it is neither a number nor
grouped. -/
def TokenKind.plainStarts : List TokenKind :=
  [.identifier, .stringLiteral, .dollar, .colon, .bang, .minus, .tilde, .leftBrace]

theorem opens_of_kind (h : l.kind ∈ TokenKind.plainStarts) : Opens e l := by
  have hall : ∀ kind ∈ TokenKind.plainStarts, kind.isNoOperand = false ∧ kind ≠ .keyword
      ∧ (kind ≠ .integer ∧ kind ≠ .float) ∧ kind ≠ .leftParen ∧ kind ≠ .leftBracket := by decide
  obtain ⟨hoperand, hkeyword, hnumber, hgroup⟩ := hall l.kind h
  exact ⟨hoperand, Lexeme.isWord_of_kind hkeyword, fun _ => hnumber, fun _ => hgroup⟩

theorem opens_of_keyword {w low : String} (h : Keyword w low) (hnot : low ≠ "not") :
    Opens e (.word w) := by
  refine ⟨?_, h.isWord_of_ne hnot, fun _ => ?_, fun _ => ?_⟩ <;> rw [h.kind] <;> decide

theorem opens_natural {n : Nat} (h : e.isUnsigned = true) : Opens e (.natural n) := by
  have hkind : (Lexeme.natural n).kind = .integer := rfl
  refine ⟨rfl, rfl, fun hnot => ?_, fun _ => ?_⟩
  · rw [h] at hnot
    cases hnot
  · rw [hkind]
    decide

theorem opens_grouped (h : e.isGrouped = true)
    (hkind : l.kind = .leftParen ∨ l.kind = .leftBracket) : Opens e l := by
  have hnot : l.kind ≠ .keyword := by rcases hkind with h | h <;> rw [h] <;> decide
  refine ⟨?_, Lexeme.isWord_of_kind hnot, fun _ => ?_, fun hfalse => ?_⟩
  · rcases hkind with h | h <;> rw [h] <;> decide
  · rcases hkind with h | h <;> rw [h] <;> decide
  · rw [h] at hfalse
    cases hfalse

theorem keyword_null : Keyword "null" "null" := .of_letters rfl (by decide)

theorem keyword_true : Keyword "true" "true" := .of_letters rfl (by decide)

theorem keyword_false : Keyword "false" "false" := .of_letters rfl (by decide)

theorem opens_value {value : Value} (hvalue : value.Printable) :
    ∃ l ls, value.lexemes = l :: ls ∧ Opens (.literal value) l := by
  cases value with
  | null => exact ⟨_, _, rfl, opens_of_keyword keyword_null (by decide)⟩
  | bool b =>
      cases b with
      | true => exact ⟨_, _, rfl, opens_of_keyword keyword_true (by decide)⟩
      | false => exact ⟨_, _, rfl, opens_of_keyword keyword_false (by decide)⟩
  | int i =>
      rw [Value.lexemes, Lexeme.integer]
      split
      · next h => exact ⟨_, _, rfl, opens_natural (decide_eq_true h)⟩
      · exact ⟨_, _, rfl, opens_of_kind (by decide)⟩
  | uint n => exact ⟨_, _, rfl, opens_natural rfl⟩
  | str s => exact ⟨_, _, rfl, opens_of_kind (by simp [Lexeme.string, TokenKind.plainStarts])⟩
  | float x => cases hvalue
  | arr items => cases hvalue
  | obj members => cases hvalue

theorem kind_functionName {w : String} (h : isKeyword w = false) :
    (Lexeme.word w).kind = .identifier := by
  rw [Lexeme.word_of_not_keyword h]

theorem exists_functionName_lexemes {f : FunctionName} (hf : f.Printable) :
    ∃ l more, f.lexemes = l :: more ∧ l.kind = .identifier := by
  obtain ⟨schema, name⟩ := f
  cases schema with
  | none => exact ⟨_, _, rfl, kind_functionName hf.name.2⟩
  | some schema => exact ⟨_, _, rfl, kind_functionName (hf.schema schema rfl).2⟩

theorem Expr.Printable.opens (he : e.Printable) : ∃ l ls, e.lexemes = l :: ls ∧ Opens e l := by
  cases e with
  | literal value => exact opens_value he
  | field path => exact ⟨_, _, rfl, opens_of_kind (by decide)⟩
  | placeholder name position => exact ⟨_, _, rfl, opens_of_kind (by decide)⟩
  | unary op operand => exact ⟨_, _, rfl, opens_of_kind (by cases op <;> decide)⟩
  | call f args =>
      obtain ⟨l, more, hl, hkind⟩ := exists_functionName_lexemes he.1
      refine ⟨l, _, by rw [Expr.lexemes, hl, List.cons_append], opens_of_kind ?_⟩
      rw [hkind]
      decide
  | star => cases he
  | array items => exact ⟨_, _, rfl, opens_grouped rfl (.inr rfl)⟩
  | object fields => exact ⟨_, _, rfl, opens_of_kind (by decide)⟩
  | _ => exact ⟨_, _, rfl, opens_grouped rfl (.inl rfl)⟩

/-- An operand without a sign. -/
theorem Parses.operand_primary (hsign : l.kind.isSign = false)
    (hword : l.token.isWord "not" = false)
    (hprimary : Parses (primary inner) ⟨l :: ls, names⟩ e s') :
    Parses (Parser.operand inner) ⟨l :: ls, names⟩ e s' := by
  rw [Parser.operand]
  refine peek?_bind fun token hkind htext => ?_
  rw [← hkind] at hsign
  simp only
  split
  · next h => rw [h] at hsign; cases hsign
  · next h => rw [h] at hsign; cases hsign
  · next h => rw [h] at hsign; cases hsign
  · next h => rw [h] at hsign; cases hsign
  · rw [Token.isWord_eq hkind htext, hword, if_neg Bool.false_ne_true]
    exact hprimary

/-- An expression in parentheses is an operand. -/
theorem Parses.operand_paren {later : List String}
    (h : Parses (inner 0) ⟨ls, names⟩ e ⟨.rightParen :: more, later⟩) :
    Parses (Parser.operand inner) ⟨.leftParen :: ls, names⟩ e ⟨more, later⟩ := by
  refine operand_primary rfl rfl ?_
  rw [primary]
  refine peek?_bind fun token hkind _ => ?_
  have hkind : token.kind = .leftParen := hkind
  simp only [hkind]
  exact advance.bind (h.bind ((expect rfl).bind (pure _)))

/-! ## Literals -/

theorem numberValue_int (i : Int64) : numberValue .integer i.toInt.repr = .int i := by
  simp [numberValue, Decimal.int64?_repr]

theorem numberValue_uint {n : UInt64} (h : Int64.maxValue.toInt < n.toNat) :
    numberValue .integer n.toNat.repr = .uint n := by
  simp [numberValue, Decimal.int64?_toDigits_of_lt h, Decimal.uint64?_toDigits]

theorem Parses.primary_integer (n : Nat) :
    Parses (primary inner) ⟨.natural n :: ls, names⟩ (.literal (numberValue .integer n.repr))
      ⟨ls, names⟩ := by
  rw [primary]
  refine peek?_bind fun token hkind htext => ?_
  have hkind : token.kind = .integer := hkind
  have htext : token.text = n.repr := htext
  simp only [hkind, htext]
  exact advance.bind (pure _)

theorem Parses.primary_word {w low : String} {value : Value} (hw : Keyword w low)
    (hvalue : wordValue? (Lexeme.word w).token = some value) :
    Parses (primary inner) ⟨.word w :: ls, names⟩ (.literal value) ⟨ls, names⟩ := by
  rw [primary]
  refine peek?_bind fun token hkind htext => ?_
  have hread : wordValue? token = some value := by
    rw [← hvalue, wordValue?, wordValue?]
    simp only [Token.isWord_eq hkind htext]
  rw [hw.kind] at hkind
  simp only [hkind, hread]
  exact advance.bind (pure _)

theorem unescape_quote {s : String} (h : Quoted.HasPlainEscapes s) :
    Quoted.unescape (Json.quote s) = s := by
  rw [Json.quote, Json.quoteChars, Quoted.unescape_flatMap, String.ofList_toList]
  exact fun c hc => Quoted.encodes_escapeChar (h c hc)

theorem Parses.primary_stringLiteral {text s : String} (h : Quoted.unescape text = s) :
    Parses (primary inner) ⟨⟨.stringLiteral, text⟩ :: ls, names⟩ (.literal (.str s)) ⟨ls, names⟩ := by
  rw [primary]
  refine peek?_bind fun token hkind htext => ?_
  simp only [hkind, htext, h]
  exact advance.bind (pure _)

theorem Parses.primary_string {s : String} (h : Quoted.HasPlainEscapes s) :
    Parses (primary inner) ⟨.string s :: ls, names⟩ (.literal (.str s)) ⟨ls, names⟩ :=
  primary_stringLiteral (unescape_quote h)

/-- A sign and a number are one literal. -/
theorem Parses.operand_negative (n : Nat) :
    Parses (Parser.operand inner) ⟨.minus :: .natural n :: ls, names⟩
      (.literal (numberValue .integer ("-" ++ n.repr))) ⟨ls, names⟩ := by
  rw [Parser.operand]
  refine peek?_bind fun token hkind htext => ?_
  have hkind : token.kind = .minus := hkind
  have htext : token.text = "-" := htext
  simp only [hkind]
  refine advance.bind ?_
  rw [signed]
  refine peek?_bind fun number hnumber hdigits => ?_
  have hnumber : number.kind = .integer := hnumber
  have hdigits : number.text = n.repr := hdigits
  simp only [hnumber, htext, hdigits, true_or, if_true]
  exact advance.bind (pure _)

/-- A literal that is written as a keyword. -/
theorem Parses.operand_word {w low : String} {value : Value} (hw : Keyword w low)
    (hnot : low ≠ "not") (hvalue : wordValue? (Lexeme.word w).token = some value) :
    Parses (Parser.operand inner) ⟨.word w :: ls, names⟩ (.literal value) ⟨ls, names⟩ := by
  refine operand_primary ?_ (hw.isWord_of_ne hnot) (primary_word hw hvalue)
  rw [hw.kind]
  rfl

theorem reads_literal {value : Value} (hvalue : value.Printable) : Reads (.literal value) := by
  intro depth ls names _ _ _
  have hnames : namesAfter names (Expr.nodes (.literal value)) = names := namesAfter_of_none rfl
  rw [hnames]
  cases value with
  | null =>
      refine Parses.operand_word keyword_null (by decide) ?_
      simp [wordValue?, keyword_null.isWord]
  | bool b =>
      cases b with
      | true =>
          refine Parses.operand_word keyword_true (by decide) ?_
          simp [wordValue?, keyword_true.isWord]
      | false =>
          refine Parses.operand_word keyword_false (by decide) ?_
          simp [wordValue?, keyword_false.isWord]
  | int i =>
      -- The sign of a negative number is a token of its own, which the literal takes back.
      rw [Expr.lexemes, Value.lexemes, Lexeme.integer, ← numberValue_int i, Int.repr_eq_if]
      split
      · exact Parses.operand_primary rfl rfl (Parses.primary_integer _)
      · exact Parses.operand_negative _
  | uint n =>
      rw [Expr.lexemes, Value.lexemes, ← numberValue_uint hvalue]
      exact Parses.operand_primary rfl rfl (Parses.primary_integer _)
  | str s =>
      exact Parses.operand_primary rfl rfl (Parses.primary_string hvalue)
  | float x => cases hvalue
  | arr items => cases hvalue
  | obj members => cases hvalue

/-! ## Fields and placeholders -/

theorem reads_field {path : Path} (hpath : path.Printable) : Reads (.field path) := by
  intro depth ls names _ hend _
  have hnames : namesAfter names (Expr.nodes (.field path)) = names := namesAfter_of_none rfl
  rw [hnames]
  refine Parses.operand_primary rfl rfl ?_
  rw [primary]
  refine Parses.peek?_bind fun token hkind _ => ?_
  simp only [hkind]
  exact Parses.advance.bind ((Parses.pathFrom hpath hend).bind (Parses.pure _))

theorem reads_placeholder {name : String} {position : UInt32} (hname : PlaceholderName name) :
    Reads (.placeholder name position) := by
  intro depth ls names _ _ hnumbered
  have hposition : position = _ := hnumbered.1 name position rfl
  rw [hposition]
  refine Parses.operand_primary rfl rfl ?_
  rw [primary]
  refine Parses.peek?_bind fun token hkind _ => ?_
  simp only [hkind]
  exact Parses.advance.bind (Parses.placeholder hname)

/-! ## Signs -/

/-- A sign is an operator where no number comes after it. -/
theorem Parses.operand_minus (hnumber : l.kind ≠ .integer ∧ l.kind ≠ .float)
    (hoperand : Parses (inner signPower) ⟨l :: ls, names⟩ operand s') :
    Parses (Parser.operand inner) ⟨.minus :: l :: ls, names⟩ (.unary .neg operand) s' := by
  rw [Parser.operand]
  refine peek?_bind fun token hkind _ => ?_
  have hkind : token.kind = .minus := hkind
  simp only [hkind]
  refine advance.bind ?_
  rw [signed]
  have hsigned : Parses (signed.operand inner token) ⟨l :: ls, names⟩ (.unary .neg operand) s' := by
    rw [signed.operand]
    refine hoperand.bind ?_
    rw [hkind, if_neg (by decide)]
    exact pure _
  refine peek?_bind fun number hnumberKind _ => ?_
  simp only
  rw [hnumberKind, if_neg (not_or.mpr hnumber)]
  exact hsigned

theorem Parses.operand_tilde
    (hoperand : Parses (inner signPower) ⟨ls, names⟩ operand s') :
    Parses (Parser.operand inner) ⟨⟨.tilde, "~"⟩ :: ls, names⟩ (.unary .bitNot operand) s' := by
  rw [Parser.operand]
  refine peek?_bind fun token hkind _ => ?_
  have hkind : token.kind = .tilde := hkind
  simp only [hkind]
  exact advance.bind (hoperand.bind (pure _))

theorem reads_unary {op : UnaryOp} (hprintable : operand.Printable)
    (hsign : op = .neg → operand.isUnsigned = false) (hoperand : Reads operand) :
    Reads (.unary op operand) := by
  intro depth ls names hdepth hend hnumbered
  have hnodes : Expr.nodes (.unary op operand) = .unary op operand :: operand.nodes := rfl
  rw [hnodes] at hnumbered ⊢
  rw [namesAfter_cons_of_none rfl]
  have hinner : Parses (expression depth signPower) ⟨operand.lexemes ++ ls, names⟩ operand
      ⟨ls, namesAfter names operand.nodes⟩ :=
    hoperand.sub hdepth hend (numberedFrom_tail rfl hnumbered) (stops_signPower _)
  cases op with
  | neg =>
      obtain ⟨l, more, hlexemes, hopens⟩ := hprintable.opens
      rw [hlexemes] at hinner
      rw [Expr.lexemes, hlexemes]
      exact Parses.operand_minus (hopens.unsigned (hsign rfl)) hinner
  | not =>
      rw [Parser.operand]
      refine Parses.peek?_bind fun token hkind _ => ?_
      have hkind : token.kind = .bang := hkind
      simp only [hkind]
      exact Parses.advance.bind (hinner.bind (Parses.pure _))
  | bitNot => exact Parses.operand_tilde hinner

/-! ## Lists of expressions -/

theorem length_le_separated {items : List (List Lexeme)} {item : List Lexeme} (h : item ∈ items) :
    item.length ≤ (Lexeme.separated items).length := by
  induction items with
  | nil => cases h
  | cons first more ih =>
      rw [Lexeme.separated_cons, List.length_append]
      rcases List.mem_cons.mp h with rfl | hmore
      · exact Nat.le_add_right _ _
      · cases more with
        | nil => cases hmore
        | cons second others =>
            have hlength := ih hmore
            rw [Lexeme.separated_cons, List.length_append] at hlength
            rw [List.flatMap_cons, List.length_append, List.length_cons]
            omega

section Lists

variable {α β ι : Type} {element : Parser α} {result : ι → α} {lexemes : ι → List Lexeme}
  {nodes : ι → List Expr} {items : List ι}

/-- A list up to its closing token, which comes at once if the list is empty. -/
theorem Parses.closedList {k : List α → Parser β} {b : β}
    (hitems : ∀ item ∈ items, ReadsItem element result lexemes nodes item)
    (hopens : ∀ item ∈ items, ∃ first more, lexemes item = first :: more ∧ first.kind ≠ l.kind)
    (hcloses : Closes (l :: ls)) (hcomma : l.kind ≠ .comma)
    (hnumbered : NumberedFrom names (items.flatMap nodes))
    (hk : Parses (k (items.map result)) ⟨l :: ls, namesAfter names (items.flatMap nodes)⟩ b s') :
    Parses (Parser.peek >>= fun kind => if kind = l.kind then Pure.pure [] >>= k
        else Parser.commaSeparated element >>= k)
      ⟨Lexeme.separated (items.map lexemes) ++ l :: ls, names⟩ b s' := by
  refine peek.bind ?_
  cases items with
  | nil =>
      have hkind : Ahead.kindAt ⟨l :: ls, names⟩ 0 = l.kind := rfl
      rw [List.map_nil, Lexeme.separated, List.nil_append, if_pos hkind]
      exact (pure []).bind hk
  | cons item others =>
      obtain ⟨first, more, hfirst, hne⟩ := hopens item List.mem_cons_self
      have hkind :
          Ahead.kindAt ⟨Lexeme.separated ((item :: others).map lexemes) ++ l :: ls, names⟩ 0
            ≠ l.kind := by
        rw [List.map_cons, Lexeme.separated_cons, hfirst]
        exact hne
      rw [if_neg hkind]
      exact (commaSeparated (List.cons_ne_nil _ _) hitems hcloses hcomma hnumbered).bind hk

end Lists

theorem Parses.listUntil {es : List Expr} {what : String} (hes : ∀ e ∈ es, e.Printable ∧ Reads e)
    (hl : l.kind = .rightParen ∨ l.kind = .rightBracket)
    (hdepth : (Lexeme.separated (Expr.listLexemes es)).length < depth)
    (hnumbered : NumberedFrom names (Expr.nodesOfList es)) :
    Parses (Parser.listUntil (Parser.expression depth) l.kind what)
      ⟨Lexeme.separated (Expr.listLexemes es) ++ l :: ls, names⟩ es
      ⟨ls, namesAfter names (Expr.nodesOfList es)⟩ := by
  rw [Expr.listLexemes_eq_map] at hdepth ⊢
  rw [Expr.nodesOfList_eq_flatMap] at hnumbered ⊢
  have hitems : ∀ e ∈ es, ReadsItem (Parser.expression depth 0) id Expr.lexemes Expr.nodes e := by
    intro e he ls names hcloses hnumbered
    have hlength := length_le_separated (List.mem_map_of_mem (f := Expr.lexemes) he)
    exact (hes e he).2.closed (by omega) hcloses hnumbered
  rw [Parser.listUntil]
  refine closedList hitems (fun e he => ?_) ?_ ?_ hnumbered ?_
  · obtain ⟨first, more, hfirst, hopens⟩ := (hes e he).1.opens
    refine ⟨first, more, hfirst, ?_⟩
    rcases hl with hl | hl <;> rw [hl]
    · exact hopens.kind_ne rfl
    · exact hopens.kind_ne rfl
  · rcases hl with hl | hl <;> simp [Closes, hl]
  · rcases hl with hl | hl <;> rw [hl] <;> decide
  · rw [List.map_id]
    exact (expect rfl).bind (pure _)

/-- What starts with an opening bracket is an array. -/
theorem Parses.primary_leftBracket {items : List Expr}
    (hlist : Parses (Parser.listUntil inner .rightBracket "]") ⟨ls, names⟩ items s') :
    Parses (primary inner) ⟨.leftBracket :: ls, names⟩ (.array items) s' := by
  rw [primary]
  refine peek?_bind fun token hkind _ => ?_
  have hkind : token.kind = .leftBracket := hkind
  simp only [hkind]
  exact advance.bind (hlist.bind (pure _))

theorem reads_array {items : List Expr} (hitems : ∀ e ∈ items, e.Printable ∧ Reads e) :
    Reads (.array items) := by
  intro depth ls names hdepth _ hnumbered
  have hnodes : Expr.nodes (.array items) = .array items :: Expr.nodesOfList items := rfl
  rw [hnodes] at hnumbered ⊢
  simp only [Expr.lexemes, List.length_cons, List.length_append, List.length_nil] at hdepth
  rw [namesAfter_cons_of_none rfl, Expr.lexemes, List.cons_append, List.append_assoc]
  exact Parses.operand_primary rfl rfl
    (Parses.primary_leftBracket
      (Parses.listUntil hitems (.inr rfl) (by omega) (numberedFrom_tail rfl hnumbered)))

/-! ## Objects -/

theorem Parses.objectField {key : String} (hkey : Quoted.HasPlainEscapes key) (he : Reads e)
    (hdepth : e.lexemes.length < depth) (hcloses : Closes ls)
    (hnumbered : NumberedFrom names e.nodes) :
    Parses (Parser.objectField (Parser.expression depth))
      ⟨.string key :: ⟨.colon, ":"⟩ :: (e.lexemes ++ ls), names⟩ (key, e)
      ⟨ls, namesAfter names e.nodes⟩ := by
  rw [Parser.objectField]
  refine peek?_bind fun token hkind htext => ?_
  have hkind : token.kind = .stringLiteral := hkind
  have htext : token.text = Json.quote key := htext
  simp only [hkind, htext, unescape_quote hkey]
  exact advance.bind ((expect rfl).bind ((he.closed hdepth hcloses hnumbered).bind (pure _)))

theorem reads_object {fields : List (String × Expr)}
    (hfields : ∀ field ∈ fields, Quoted.HasPlainEscapes field.1 ∧ Reads field.2) :
    Reads (.object fields) := by
  intro depth ls names hdepth _ hnumbered
  have hnodes : Expr.nodes (.object fields) = .object fields :: Expr.nodesOfFields fields := rfl
  rw [hnodes] at hnumbered ⊢
  have hnumbered := numberedFrom_tail rfl hnumbered
  simp only [Expr.lexemes, List.length_cons, List.length_append, List.length_nil] at hdepth
  rw [namesAfter_cons_of_none rfl, Expr.lexemes, List.cons_append, List.append_assoc]
  rw [Expr.nodesOfFields_eq_flatMap] at hnumbered ⊢
  rw [Expr.fieldLexemes_eq_map] at hdepth ⊢
  have hitems : ∀ field ∈ fields, ReadsItem (objectField (expression depth)) id
      (fun field => .string field.1 :: ⟨.colon, ":"⟩ :: field.2.lexemes)
      (fun field => field.2.nodes) field := by
    intro field hfield ls names hcloses hnumbered
    have hlength := length_le_separated (List.mem_map_of_mem
      (f := fun field : String × Expr => .string field.1 :: ⟨.colon, ":"⟩ :: field.2.lexemes)
      hfield)
    simp only [List.length_cons] at hlength
    exact Parses.objectField (hfields field hfield).1 (hfields field hfield).2 (by omega) hcloses
      hnumbered
  refine Parses.operand_primary rfl rfl ?_
  rw [primary]
  refine Parses.peek?_bind fun token hkind _ => ?_
  simp only [hkind]
  refine Parses.advance.bind ?_
  rw [objectBody]
  have hne : TokenKind.stringLiteral ≠ .rightBrace := by decide
  refine Parses.closedList (l := ⟨.rightBrace, "\x7d"⟩) hitems (fun _ _ => ⟨_, _, rfl, hne⟩)
    (.inr (.inr (.inr rfl))) (by decide) hnumbered ?_
  rw [List.map_id]
  exact (Parses.expect rfl).bind (Parses.pure _)

/-! ## Calls -/

theorem Parses.memberName {w : String} (h : isKeyword w = false) :
    Parses Parser.memberName ⟨.word w :: ls, names⟩ w ⟨ls, names⟩ := by
  rw [Lexeme.word_of_not_keyword h, Parser.memberName]
  refine peek?_bind fun token hkind htext => ?_
  have hkind : token.kind = .identifier := hkind
  have htext : token.text = w := htext
  simp only [hkind, htext]
  exact advance.bind (pure _)

theorem Parses.startsCall_eq (c : Cursor) : startsCall c = startsCall c.ahead.cursor := by
  have hkind : c.kindAt = c.ahead.cursor.kindAt := funext c.kindAt_eq
  rw [startsCall, startsCall, hkind]

/-- A name that neither a call nor a step of a path goes on with is the field of that name. -/
theorem Parses.operand_member {name : String}
    (hkind : l.kind = .identifier ∨ l.kind = .quotedIdentifier)
    (hname : Parses Parser.memberName ⟨l :: ls, names⟩ name ⟨ls, names⟩)
    (hcall : startsCall (Ahead.cursor ⟨l :: ls, names⟩) = false)
    (hend : Ahead.EndsPath ⟨ls, names⟩) :
    Parses (Parser.operand inner) ⟨l :: ls, names⟩ (.field (.ofMember name)) ⟨ls, names⟩ := by
  have hpath : Parses (Parser.pathFrom [.member name]) ⟨ls, names⟩ (.ofMember name) ⟨ls, names⟩ := by
    have hsteps : Parses (Parser.pathSteps ls.length) ⟨ls, names⟩ [] ⟨ls, names⟩ :=
      pathSteps (List.forall_mem_nil _) hend (Nat.zero_le _)
    exact remaining.bind (hsteps.bind (pure _))
  have hfield : Parses (named inner) ⟨l :: ls, names⟩ (.field (.ofMember name)) ⟨ls, names⟩ := by
    rw [Parser.named]
    refine get_bind fun c hc => ?_
    rw [startsCall_eq, hc, hcall, if_neg Bool.false_ne_true]
    exact hname.bind (hpath.bind (pure _))
  have hword : l.kind ≠ .keyword := by rcases hkind with h | h <;> rw [h] <;> decide
  have hsign : l.kind.isSign = false := by rcases hkind with h | h <;> rw [h] <;> rfl
  refine operand_primary hsign (Lexeme.isWord_of_kind hword) ?_
  rw [Parser.primary]
  refine peek?_bind fun token htoken _ => ?_
  rcases hkind with h | h <;> (rw [h] at htoken; simpa only [htoken] using hfield)

theorem Parses.operand_name {name : String} (h : isKeyword name = false)
    (hcall : startsCall (Ahead.cursor ⟨.word name :: ls, names⟩) = false)
    (hend : Ahead.EndsPath ⟨ls, names⟩) :
    Parses (Parser.operand inner) ⟨.word name :: ls, names⟩ (.field (.ofMember name))
      ⟨ls, names⟩ :=
  operand_member (.inl (kind_functionName h)) (memberName h) hcall hend

theorem Parses.arguments {args : List Expr}
    (hargs : args = [.star] ∨ ∀ e ∈ args, e.Printable ∧ Reads e)
    (hdepth : (Lexeme.separated (Expr.listLexemes args)).length < depth)
    (hnumbered : NumberedFrom names (Expr.nodesOfList args)) :
    Parses (Parser.arguments (Parser.expression depth))
      ⟨Lexeme.separated (Expr.listLexemes args) ++ .rightParen :: ls, names⟩ args
      ⟨ls, namesAfter names (Expr.nodesOfList args)⟩ := by
  rw [Parser.arguments]
  refine get_bind fun c hc => ?_
  rw [Cursor.kindAt_eq, Cursor.kindAt_eq, hc]
  rcases hargs with rfl | hargs
  · rw [if_pos ⟨rfl, rfl⟩]
    exact advance.bind ((expect rfl).bind (pure _))
  · -- No operand starts with a star, so these are arguments of the usual kind.
    have hstar :
        Ahead.kindAt ⟨Lexeme.separated (Expr.listLexemes args) ++ .rightParen :: ls, names⟩ 0
          ≠ .star := by
      cases args with
      | nil =>
          show TokenKind.rightParen ≠ .star
          decide
      | cons first more =>
          obtain ⟨l, others, hfirst, hopens⟩ := (hargs first List.mem_cons_self).1.opens
          rw [Expr.listLexemes, Lexeme.separated_cons, hfirst]
          exact hopens.kind_ne rfl
    rw [if_neg fun h => hstar h.1]
    exact listUntil hargs (.inl rfl) hdepth hnumbered

theorem Parses.call {f : FunctionName} {args : List Expr} (hf : f.Printable)
    (hargs : Parses (Parser.arguments inner) ⟨ls, names⟩ args s') :
    Parses (Parser.call inner) ⟨f.lexemes ++ .leftParen :: ls, names⟩ (.call f args) s' := by
  obtain ⟨schema, name⟩ := f
  have hname := hf.name.2
  rw [Parser.call]
  cases schema with
  | none =>
      exact (memberName hname).bind (bind_false (reject rfl)
        ((pure _).bind ((expect rfl).bind (hargs.bind (pure _)))))
  | some schema =>
      exact (memberName (hf.schema schema rfl).2).bind (bind_true (accept rfl)
        ((memberName hname).bind ((pure _).bind ((expect rfl).bind (hargs.bind (pure _))))))

theorem startsCall_functionName {f : FunctionName} (hf : f.Printable) {c : Cursor}
    (hc : c.ahead = ⟨f.lexemes ++ .leftParen :: ls, names⟩) : startsCall c = true := by
  obtain ⟨schema, name⟩ := f
  have hname : (Lexeme.word name).kind = .identifier := kind_functionName hf.name.2
  rw [startsCall, Cursor.kindAt_eq, Cursor.kindAt_eq, Cursor.kindAt_eq, hc]
  cases schema with
  | none => rfl
  | some schema =>
      have hsecond :
          Ahead.kindAt ⟨FunctionName.lexemes ⟨some schema, name⟩ ++ .leftParen :: ls, names⟩ 2
            = .identifier := hname
      rw [hsecond]
      rfl

theorem reads_call {f : FunctionName} {args : List Expr} (hf : f.Printable)
    (hargs : args = [.star] ∨ ∀ e ∈ args, e.Printable ∧ Reads e) : Reads (.call f args) := by
  intro depth ls names hdepth _ hnumbered
  have hnodes : Expr.nodes (.call f args) = .call f args :: Expr.nodesOfList args := rfl
  rw [hnodes] at hnumbered ⊢
  have hnumbered := numberedFrom_tail rfl hnumbered
  simp only [Expr.lexemes, List.length_cons, List.length_append, List.length_nil] at hdepth
  have hlist : Parses (Parser.arguments (expression depth))
      ⟨Lexeme.separated (Expr.listLexemes args) ++ .rightParen :: ls, names⟩ args
      ⟨ls, namesAfter names (Expr.nodesOfList args)⟩ :=
    Parses.arguments hargs (by omega) hnumbered
  have hnamed : Parses (named (expression depth))
      ⟨f.lexemes ++ .leftParen ::
        (Lexeme.separated (Expr.listLexemes args) ++ .rightParen :: ls), names⟩
      (.call f args) ⟨ls, namesAfter names (Expr.nodesOfList args)⟩ := by
    rw [named]
    refine Parses.get_bind fun c hc => ?_
    rw [if_pos (startsCall_functionName hf hc)]
    exact Parses.call hf hlist
  rw [namesAfter_cons_of_none rfl, Expr.lexemes, List.append_assoc, List.cons_append,
    List.append_assoc]
  obtain ⟨l, more, hl, hkind⟩ := exists_functionName_lexemes hf
  rw [hl] at hnamed ⊢
  refine Parses.operand_primary ?_ (Lexeme.isWord_of_kind ?_) ?_
  · rw [hkind]
    rfl
  · rw [hkind]
    decide
  · rw [primary]
    refine Parses.peek?_bind fun token htoken _ => ?_
    rw [hkind] at htoken
    simp only [htoken]
    exact hnamed

end DocStore
