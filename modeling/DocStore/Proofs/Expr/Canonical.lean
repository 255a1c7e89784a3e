import DocStore.Proofs.Expr.Printable

/-!
# The lexemes of canonical text

`Expr.lexemes` lists what canonical text consists of once the blanks are gone.  Main statement:
`Expr.Printable.written`, the lexer cuts the canonical text of a printable tree into these lexemes.
-/

namespace DocStore

namespace Lexeme

def leftParen : Lexeme := ⟨.leftParen, "("⟩

def rightParen : Lexeme := ⟨.rightParen, ")"⟩

def leftBracket : Lexeme := ⟨.leftBracket, "["⟩

def rightBracket : Lexeme := ⟨.rightBracket, "]"⟩

def comma : Lexeme := ⟨.comma, ","⟩

def dot : Lexeme := ⟨.dot, "."⟩

def star : Lexeme := ⟨.star, "*"⟩

def minus : Lexeme := ⟨.minus, "-"⟩

/-- Lists of lexemes with commas between them. -/
def separated : List (List Lexeme) → List Lexeme
  | [] => []
  | [ls] => ls
  | ls :: rest => ls ++ comma :: separated rest

end Lexeme

def Segment.lexemes : Segment → List Lexeme
  | .member name =>
    [.dot, if isPlainName name then .word name else ⟨.stringLiteral, quoteName name⟩]
  | .memberWildcard => [⟨.dotStar, ".*"⟩]
  | .index n => [.leftBracket, .natural n.toNat, .rightBracket]
  | .indexWildcard => [.leftBracket, .star, .rightBracket]
  | .doubleWildcard => [⟨.doubleStar, "**"⟩]

def Path.lexemes (path : Path) : List Lexeme :=
  ⟨.dollar, "$"⟩ :: path.segments.flatMap Segment.lexemes

/-- The lexemes of an integer; a negative one has its sign apart. -/
def Lexeme.integer (i : Int) : List Lexeme :=
  if 0 ≤ i then [.natural i.toNat] else [.minus, .natural (-i).toNat]

/-- The lexemes of a scalar other than a floating-point number. -/
def Value.lexemes : Value → List Lexeme
  | .null => [.word "null"]
  | .bool b => [.word (if b then "true" else "false")]
  | .int i => Lexeme.integer i.toInt
  | .uint n => [.natural n.toNat]
  | .str s => [.string s]
  | _ => []

def BinaryOp.tokenKind : BinaryOp → TokenKind
  | .or => .orOr | .and => .andAnd
  | .eq => .equals | .notEq => .notEqual
  | .lt => .lessThan | .ltEq => .lessEqual | .gt => .greaterThan | .gtEq => .greaterEqual
  | .bitAnd => .amp | .bitOr => .pipe | .bitXor => .caret | .shl => .shiftLeft | .shr => .shiftRight
  | .add => .plus | .sub => .minus | .mul => .star | .div => .slash | .mod => .percent

def UnaryOp.tokenKind : UnaryOp → TokenKind
  | .not => .bang | .neg => .minus | .bitNot => .tilde

def BinaryOp.lexeme (op : BinaryOp) : Lexeme := ⟨op.tokenKind, op.symbol⟩

def UnaryOp.lexeme (op : UnaryOp) : Lexeme := ⟨op.tokenKind, op.symbol⟩

/-- The name of a placeholder, without the colon. -/
def Lexeme.placeholder (name : String) : Lexeme :=
  if name.toList.all Char.isDigit then ⟨.integer, name⟩ else .word name

def FunctionName.lexemes (f : FunctionName) : List Lexeme :=
  match f.schema with
  | some schema => [.word schema, .dot, .word f.name]
  | none => [.word f.name]

namespace Expr

def negationLexemes (negated : Bool) : List Lexeme := if negated then [.word "NOT"] else []

mutual

/-- What the canonical text of a tree consists of. -/
def lexemes : Expr → List Lexeme
  | .literal value => value.lexemes
  | .field path => path.lexemes
  | .placeholder name _ => [⟨.colon, ":"⟩, .placeholder name]
  | .unary op operand => op.lexeme :: lexemes operand
  | .binary op left right =>
    .leftParen :: (lexemes left ++ op.lexeme :: (lexemes right ++ [.rightParen]))
  | .call name args =>
    name.lexemes ++ .leftParen :: (Lexeme.separated (listLexemes args) ++ [.rightParen])
  | .star => [.star]
  | .isIn target list negated form =>
    let items := Lexeme.separated (listLexemes list)
    let candidates := match form with
      | .paren => .leftParen :: (items ++ [.rightParen])
      | .bracket => .leftBracket :: (items ++ [.rightBracket])
      | .container => items
    .leftParen :: (lexemes target ++ (negationLexemes negated
      ++ .word "IN" :: (candidates ++ [.rightParen])))
  | .overlaps left right negated =>
    .leftParen :: (lexemes left ++ (negationLexemes negated
      ++ .word "OVERLAPS" :: (lexemes right ++ [.rightParen])))
  | .like target pattern escape negated =>
    .leftParen :: (lexemes target ++ (negationLexemes negated
      ++ .word "LIKE" :: (lexemes pattern ++ (escapeLexemes escape ++ [.rightParen]))))
  | .between target low high negated =>
    .leftParen :: (lexemes target ++ (negationLexemes negated
      ++ .word "BETWEEN" :: (lexemes low ++ .word "AND" :: (lexemes high ++ [.rightParen]))))
  | .isValue target value negated =>
    .leftParen :: (lexemes target ++ .word "IS" :: (negationLexemes negated
      ++ (lexemes value ++ [.rightParen])))
  | .regexp target pattern negated =>
    .leftParen :: (lexemes target ++ (negationLexemes negated
      ++ .word "REGEXP" :: (lexemes pattern ++ [.rightParen])))
  | .array items => .leftBracket :: (Lexeme.separated (listLexemes items) ++ [.rightBracket])
  | .object fields =>
    ⟨.leftBrace, "\x7b"⟩ :: (Lexeme.separated (fieldLexemes fields) ++ [⟨.rightBrace, "\x7d"⟩])

def listLexemes : List Expr → List (List Lexeme)
  | [] => []
  | e :: rest => lexemes e :: listLexemes rest

def escapeLexemes : Option Expr → List Lexeme
  | none => []
  | some e => .word "ESCAPE" :: lexemes e

def fieldLexemes : List (String × Expr) → List (List Lexeme)
  | [] => []
  | (key, e) :: rest => (.string key :: ⟨.colon, ":"⟩ :: lexemes e) :: fieldLexemes rest

end

end Expr

/-! ## Where an operand is over -/

/-- What stands here, if anything, belongs to nothing that is written before it. -/
def endsOperand (rest : List Char) : Bool :=
  rest.head?.all fun c => [' ', ',', ')', ']', '\x7d'].contains c

theorem endsOperand_cases {rest : List Char} (h : endsOperand rest = true) :
    endsWord rest = true ∧ endsNumber rest = true ∧ endsString rest = true := by
  cases rest with
  | nil => exact ⟨rfl, rfl, rfl⟩
  | cons c more =>
      have hc : c = ' ' ∨ c = ',' ∨ c = ')' ∨ c = ']' ∨ c = '\x7d' := by
        simpa [endsOperand] using h
      rcases hc with rfl | rfl | rfl | rfl | rfl <;> exact ⟨rfl, rfl, rfl⟩

namespace Lexes

open Token

variable {c : Char} {cs rest : List Char} {ls : List Lexeme} {kind : TokenKind}

/-- A character that is a token whatever follows it. -/
theorem symbol (hsymbol : ∀ next, operator? c next = some (kind, 1)) (h : Lexes rest ls) :
    Lexes (c :: rest) (⟨kind, String.ofList [c]⟩ :: ls) := by
  show Lexes (c :: ([] ++ rest)) _
  -- A point is no such character: with a star after it, it is another token.
  refine operator (hsymbol _) (.inl ?_) h
  rintro rfl
  cases hsymbol (some '*')

theorem leftParen (h : Lexes rest ls) : Lexes ('(' :: rest) (.leftParen :: ls) :=
  symbol (fun _ => rfl) h

theorem rightParen (h : Lexes rest ls) : Lexes (')' :: rest) (.rightParen :: ls) :=
  symbol (fun _ => rfl) h

theorem leftBracket (h : Lexes rest ls) : Lexes ('[' :: rest) (.leftBracket :: ls) :=
  symbol (fun _ => rfl) h

theorem rightBracket (h : Lexes rest ls) : Lexes (']' :: rest) (.rightBracket :: ls) :=
  symbol (fun _ => rfl) h

theorem star (h : Lexes (c :: rest) ls) (hc : c ≠ '*') :
    Lexes ('*' :: c :: rest) (.star :: ls) := by
  have hstar : Token.operator? '*' (some c) = some (.star, 1) := by
    unfold operator?
    split <;> simp_all
  show Lexes ('*' :: ([] ++ c :: rest)) _
  exact operator hstar (.inl (by decide)) h

theorem exists_of_isPlainName {w : String} (hw : Segment.isPlainName w = true) :
    ∃ c cs, w.toList = c :: cs ∧ Segment.isNameStart c = true
      ∧ ∀ d ∈ cs, Segment.isNameChar d = true := by
  rw [Segment.isPlainName] at hw
  split at hw
  · cases hw
  · next c cs heq =>
      obtain ⟨hc, hcs⟩ := Bool.and_eq_true_iff.mp hw
      exact ⟨c, cs, heq, hc, List.all_eq_true.mp hcs⟩

/-- A name as a lexeme. -/
theorem plainName {w : String} (hw : Segment.isPlainName w = true) (hrest : endsWord rest = true)
    (h : Lexes rest ls) : Lexes (w.toList ++ rest) (Lexeme.word w :: ls) := by
  obtain ⟨c, cs, heq, hc, hcs⟩ := exists_of_isPlainName hw
  rw [← String.ofList_toList (s := w), heq]
  simpa using word hc hcs hrest h

/-- A keyword between blanks. -/
theorem keyword {w : String} (hw : Segment.isPlainName w = true) (h : Lexes rest ls) :
    Lexes (' ' :: (w.toList ++ ' ' :: rest)) (Lexeme.word w :: ls) :=
  blank rfl (plainName hw rfl (blank rfl h))

/-! ## Paths -/

theorem operator?_dot {next : Option Char} (h : next ≠ some '*') :
    operator? '.' next = some (.dot, 1) := by
  unfold operator?
  split <;> simp_all

/-- A point before anything but a digit or a star. -/
theorem dot (hstar : rest.head? ≠ some '*') (hdigit : startsWithDigit rest = false)
    (h : Lexes rest ls) : Lexes ('.' :: rest) (Lexeme.dot :: ls) := by
  show Lexes ('.' :: ([] ++ rest)) _
  exact operator (operator?_dot hstar) (.inr hdigit) h

/-- A point and a name. -/
theorem dotName {w : String} (hw : Segment.isPlainName w = true) (hrest : endsWord rest = true)
    (h : Lexes rest ls) :
    Lexes ('.' :: (w.toList ++ rest)) (Lexeme.dot :: Lexeme.word w :: ls) := by
  have hname := plainName hw hrest h
  obtain ⟨c, cs, heq, hc, -⟩ := exists_of_isPlainName hw
  rw [heq] at hname ⊢
  refine dot ?_ (isDigit_of_isNameStart hc) hname
  rintro hstar
  cases hstar
  cases hc

theorem segment {s : Segment} (hs : s.Printable) (hword : endsWord rest = true)
    (hstring : endsString rest = true) (h : Lexes rest ls) :
    Lexes (s.text.toList ++ rest) (s.lexemes ++ ls) := by
  cases s with
  | member name =>
      cases hplain : Segment.isPlainName name with
      | true =>
          simpa [Segment.text, Segment.lexemes, hplain] using dotName hplain hword h
      | false =>
          have hname := quoted (fun c hc => Quoted.encodes_escapeQuote fun hback => hs (hback ▸ hc))
            hstring h
          simp only [Segment.text, Segment.lexemes, hplain, Quoted.quoteName_eq]
          simpa using dot (by simp) rfl hname
  | memberWildcard =>
      show Lexes ('.' :: (['*'] ++ rest)) _
      exact operator rfl (.inr rfl) h
  | index n =>
      have hopen := leftBracket (natural n.toNat rfl (rightBracket h))
      simpa [Segment.text, Segment.lexemes] using hopen
  | indexWildcard => exact leftBracket (star (rightBracket h) (by decide))
  | doubleWildcard =>
      show Lexes ('*' :: (['*'] ++ rest)) _
      exact operator rfl (.inl (by decide)) h

/-- A step of a path starts with nothing that the name before it could go on with. -/
theorem endsStep_segment (s : Segment) (rest : List Char) :
    endsWord (s.text.toList ++ rest) = true ∧ endsString (s.text.toList ++ rest) = true := by
  cases s <;> simp [Segment.text, endsWord, endsString] <;> decide

theorem segments {steps : List Segment} (hsteps : ∀ s ∈ steps, s.Printable)
    (hword : endsWord rest = true) (hstring : endsString rest = true) (h : Lexes rest ls) :
    Lexes ((steps.map Segment.text).flatMap String.toList ++ rest)
      (steps.flatMap Segment.lexemes ++ ls) := by
  induction steps with
  | nil => exact h
  | cons s more ih =>
      have hmore := ih fun x hx => hsteps x (List.mem_cons_of_mem _ hx)
      rw [List.map_cons, List.flatMap_cons, List.flatMap_cons, List.append_assoc, List.append_assoc]
      -- The next step, if there is one, ends the name of this one; else what follows the path does.
      cases more with
      | nil => exact segment (hsteps s List.mem_cons_self) hword hstring hmore
      | cons next others =>
          rw [List.map_cons, List.flatMap_cons, List.append_assoc] at hmore ⊢
          obtain ⟨hnext, hnext'⟩ := endsStep_segment next
            ((others.map Segment.text).flatMap String.toList ++ rest)
          exact segment (hsteps s List.mem_cons_self) hnext hnext' hmore

theorem path {p : Path} (hp : p.Printable) (hrest : endsOperand rest = true) (h : Lexes rest ls) :
    Lexes (p.text.toList ++ rest) (p.lexemes ++ ls) := by
  obtain ⟨hword, -, hstring⟩ := endsOperand_cases hrest
  have hsteps := segments hp.segments hword hstring h
  have hroot : Lexes ('$' :: _) (⟨.dollar, "$"⟩ :: _) := symbol (fun _ => rfl) hsteps
  simpa [Path.text, Path.lexemes, String.toList_join] using hroot

/-! ## Literals and operators -/

theorem integer_repr (i : Int) (hrest : endsNumber rest = true) (h : Lexes rest ls) :
    Lexes (i.repr.toList ++ rest) (Lexeme.integer i ++ ls) := by
  rw [Int.repr_eq_if, Lexeme.integer]
  split
  · exact natural i.toNat hrest h
  · have hminus : Lexes ('-' :: _) (Lexeme.minus :: _) :=
      symbol (fun _ => rfl) (natural (-i).toNat hrest h)
    simpa using hminus

theorem value {v : Value} (hv : v.Printable) (hrest : endsOperand rest = true) (h : Lexes rest ls) :
    Lexes (v.text.toList ++ rest) (v.lexemes ++ ls) := by
  obtain ⟨hword, hnumber, hstring⟩ := endsOperand_cases hrest
  cases v with
  | null => exact plainName (w := "null") rfl hword h
  | bool b =>
      cases b with
      | true => exact plainName (w := "true") rfl hword h
      | false => exact plainName (w := "false") rfl hword h
  | int i => exact integer_repr i.toInt hnumber h
  | uint n => exact natural n.toNat hnumber h
  | str s => exact string hv hstring h
  | float x => cases hv
  | arr items => cases hv
  | obj members => cases hv

/-- An operator between blanks. -/
theorem binaryOp (op : BinaryOp) (h : Lexes rest ls) :
    Lexes (' ' :: (op.symbol.toList ++ ' ' :: rest)) (op.lexeme :: ls) := by
  have hblank : Lexes (' ' :: rest) ls := blank rfl h
  refine blank rfl ?_
  cases op <;> exact operator rfl (.inl (by decide)) hblank

/-- A sign before an operand.  An exclamation mark and an equals sign would be one token. -/
theorem unaryOp (op : UnaryOp) (hrest : rest.head? ≠ some '=') (h : Lexes rest ls) :
    Lexes (op.symbol.toList ++ rest) (op.lexeme :: ls) := by
  have hbang : operator? '!' rest.head? = some (.bang, 1) := by
    unfold operator?
    split <;> simp_all
  cases op with
  | not => exact operator hbang (.inl (by decide)) h
  | neg => exact symbol (fun _ => rfl) h
  | bitNot => exact symbol (fun _ => rfl) h

end Lexes

/-! ## Whole texts -/

/-- The text is cut into these lexemes wherever an operand may stand. -/
def Written (text : String) (lexemes : List Lexeme) : Prop :=
  ∀ (rest : List Char) (ls : List Lexeme), endsOperand rest = true → Lexes rest ls →
    Lexes (text.toList ++ rest) (lexemes ++ ls)

theorem Written.separated {α : Type} {items : List α} {text : α → String}
    {lexemes : α → List Lexeme} (h : ∀ item ∈ items, Written (text item) (lexemes item)) :
    Written (Expr.commaSeparated (items.map text)) (Lexeme.separated (items.map lexemes)) := by
  induction items with
  | nil =>
      intro rest ls _ hls
      simpa [Expr.commaSeparated, Lexeme.separated] using hls
  | cons first more ih =>
      have hfirst := h first List.mem_cons_self
      have hmore := ih fun item hitem => h item (List.mem_cons_of_mem _ hitem)
      cases more with
      | nil => simpa [Expr.commaSeparated, Lexeme.separated] using hfirst
      | cons second others =>
          intro rest ls hrest hls
          -- The comma that comes next ends the text of this item.
          have hblank := Lexes.blank (c := ' ') rfl (hmore _ _ hrest hls)
          have hcomma : Lexes (',' :: _) (Lexeme.comma :: _) := Lexes.symbol (fun _ => rfl) hblank
          simpa [Expr.commaSeparated, Lexeme.separated] using hfirst _ _ rfl hcomma

namespace Expr

theorem listTexts_eq_map (es : List Expr) : listTexts es = es.map text := by
  induction es with
  | nil => rfl
  | cons e rest ih => rw [listTexts, ih, List.map_cons]

theorem listLexemes_eq_map (es : List Expr) : listLexemes es = es.map lexemes := by
  induction es with
  | nil => rfl
  | cons e rest ih => rw [listLexemes, ih, List.map_cons]

theorem fieldTexts_eq_map (fields : List (String × Expr)) :
    fieldTexts fields = fields.map fun field => Json.quote field.1 ++ ": " ++ field.2.text := by
  induction fields with
  | nil => rfl
  | cons field rest ih => rw [fieldTexts, ih, List.map_cons]

theorem fieldLexemes_eq_map (fields : List (String × Expr)) :
    fieldLexemes fields
      = fields.map fun field => .string field.1 :: ⟨.colon, ":"⟩ :: field.2.lexemes := by
  induction fields with
  | nil => rfl
  | cons field rest ih => rw [fieldLexemes, ih, List.map_cons]

attribute [local simp] text lexemes

/-! ### How texts start -/

/-- Whether there is a first character and it is no equals sign. -/
def startsOperand (cs : List Char) : Bool := cs.head?.any (· != '=')

theorem startsOperand_toDigits (n : Nat) : startsOperand (Nat.toDigits 10 n) = true := by
  cases h : Nat.toDigits 10 n with
  | nil => exact absurd h Nat.toDigits_ne_nil
  | cons c cs =>
      have hc : c.isDigit = true :=
        Nat.isDigit_of_mem_toDigits (by decide) (by decide) (h ▸ List.mem_cons_self)
      have hne : c ≠ '=' := by
        rintro rfl
        cases hc
      simp [startsOperand, hne]

theorem startsOperand_name {w : String} (hw : Segment.isPlainName w = true) :
    startsOperand w.toList = true := by
  obtain ⟨c, cs, heq, hc, -⟩ := Lexes.exists_of_isPlainName hw
  have hne : c ≠ '=' := by
    rintro rfl
    cases hc
  simp [startsOperand, heq, hne]

theorem startsOperand_append {cs : List Char} (h : startsOperand cs = true) (rest : List Char) :
    startsOperand (cs ++ rest) = true := by
  cases cs with
  | nil => cases h
  | cons c more => exact h

theorem startsOperand_value {v : Value} (hv : v.Printable) :
    startsOperand v.text.toList = true := by
  cases v with
  | null => rfl
  | bool b => cases b <;> rfl
  | int i =>
      show startsOperand i.toInt.repr.toList = true
      rw [Int.repr_eq_if]
      split
      · simp [startsOperand_toDigits]
      · simp [startsOperand]
  | uint n =>
      show startsOperand n.toNat.repr.toList = true
      simp [startsOperand_toDigits]
  | str s =>
      simp [Value.text, Value.toJson, Json.compress, Json.quote, Json.quoteChars, startsOperand]
  | float x => cases hv
  | arr items => cases hv
  | obj members => cases hv

theorem startsOperand_functionName {f : FunctionName} (hf : f.Printable) :
    startsOperand f.text.toList = true := by
  obtain ⟨schema, name⟩ := f
  cases schema with
  | none => exact startsOperand_name hf.name.1
  | some schema =>
      simp only [FunctionName.text, String.toList_append, List.append_assoc]
      exact startsOperand_append (startsOperand_name (hf.schema schema rfl).1) _

/-- No text starts with an equals sign, which would go with an exclamation mark before it. -/
theorem startsOperand_text {e : Expr} (he : e.Printable) : startsOperand e.text.toList = true := by
  cases e with
  | literal value => exact startsOperand_value he
  | unary op operand => cases op <;> simp [text, UnaryOp.symbol, startsOperand]
  | call f args =>
      simp only [text, String.toList_append, List.append_assoc]
      exact startsOperand_append (startsOperand_functionName he.1) _
  | star => cases he
  | _ => simp [text, Path.text, startsOperand]

/-! ### Predicates -/

variable {rest : List Char} {ls : List Lexeme}

theorem lexes_negation {cs : List Char} (negated : Bool) (h : Lexes cs ls) :
    Lexes ((negation negated).toList ++ cs) (negationLexemes negated ++ ls) := by
  cases negated with
  | false => exact h
  | true => exact Lexes.plainName (w := "NOT") rfl rfl (Lexes.blank rfl h)

/-- What stands between the parentheses of a predicate: its target, a word that may be negated, and
what comes after it. -/
theorem lexes_predicate {target : Expr} {cs : List Char} (w : String) (negated : Bool)
    (htarget : Written target.text target.lexemes) (hw : Segment.isPlainName w = true)
    (h : Lexes cs ls) :
    Lexes ('(' :: (target.text.toList ++ ' ' :: ((negation negated).toList ++
        (w.toList ++ ' ' :: cs))))
      (.leftParen :: (target.lexemes ++ (negationLexemes negated ++ .word w :: ls))) := by
  have hword : Lexes (w.toList ++ ' ' :: cs) (.word w :: ls) :=
    Lexes.plainName hw rfl (Lexes.blank rfl h)
  exact Lexes.leftParen (htarget _ _ rfl (Lexes.blank rfl (lexes_negation negated hword)))

theorem written_placeholder {name : String} {position : UInt32} (hname : PlaceholderName name) :
    Written (placeholder name position).text (placeholder name position).lexemes := by
  intro rest ls hrest hls
  obtain ⟨hword, hnumber, -⟩ := endsOperand_cases hrest
  have hlexes : Lexes (name.toList ++ rest) (.placeholder name :: ls) := by
    rcases hname with ⟨hplain, -⟩ | ⟨hne, hdigits⟩
    · obtain ⟨c, cs, heq, hc, -⟩ := Lexes.exists_of_isPlainName hplain
      have hnot : name.toList.all Char.isDigit = false := by
        simp [heq, Lexes.isDigit_of_isNameStart hc]
      rw [Lexeme.placeholder, hnot]
      exact Lexes.plainName hplain hword hls
    · rw [Lexeme.placeholder, if_pos (List.all_eq_true.mpr hdigits)]
      rw [← String.ofList_toList (s := name)]
      cases h : name.toList with
      | nil => exact absurd h hne
      | cons c cs =>
          rw [h] at hdigits
          simpa using Lexes.integer (hdigits c List.mem_cons_self)
            (fun d hd => hdigits d (List.mem_cons_of_mem _ hd)) hnumber hls
  have hcolon : Lexes (':' :: _) (⟨.colon, ":"⟩ :: _) := Lexes.symbol (fun _ => rfl) hlexes
  simpa using hcolon

theorem lexes_functionName {f : FunctionName} (hf : f.Printable) (hrest : endsWord rest = true)
    (h : Lexes rest ls) : Lexes (f.text.toList ++ rest) (f.lexemes ++ ls) := by
  obtain ⟨schema, name⟩ := f
  cases schema with
  | none => exact Lexes.plainName hf.name.1 hrest h
  | some schema =>
      have hname := Lexes.dotName hf.name.1 hrest h
      have hschema := Lexes.plainName (hf.schema schema rfl).1 rfl hname
      simpa [FunctionName.text, FunctionName.lexemes] using hschema

/-- Expressions with commas between them. -/
theorem written_list {es : List Expr} (h : ∀ e ∈ es, Written e.text e.lexemes) :
    Written (commaSeparated (listTexts es)) (Lexeme.separated (listLexemes es)) := by
  rw [listTexts_eq_map, listLexemes_eq_map]
  exact Written.separated h

theorem written_fields {fields : List (String × Expr)}
    (h : ∀ field ∈ fields, Quoted.HasPlainEscapes field.1 ∧ Written field.2.text field.2.lexemes) :
    Written (commaSeparated (fieldTexts fields)) (Lexeme.separated (fieldLexemes fields)) := by
  rw [fieldTexts_eq_map, fieldLexemes_eq_map]
  refine Written.separated fun field hfield rest ls hrest hls => ?_
  obtain ⟨hkey, hvalue⟩ := h field hfield
  have hblank := Lexes.blank (c := ' ') rfl (hvalue rest ls hrest hls)
  have hcolon : Lexes (':' :: _) (⟨.colon, ":"⟩ :: _) := Lexes.symbol (fun _ => rfl) hblank
  simpa using Lexes.string hkey rfl hcolon

/-! ### Nodes -/

section Nodes

variable {operand left right target pattern low high value : Expr} {es list : List Expr}
  {negated : Bool}

theorem written_unary {op : UnaryOp} (hprintable : operand.Printable)
    (hoperand : Written operand.text operand.lexemes) :
    Written (unary op operand).text (unary op operand).lexemes := by
  intro rest ls hrest hls
  have hhead : (operand.text.toList ++ rest).head? ≠ some '=' := by
    intro heq
    have hstart := startsOperand_append (startsOperand_text hprintable) rest
    rw [startsOperand, heq] at hstart
    cases hstart
  simpa using Lexes.unaryOp op hhead (hoperand rest ls hrest hls)

theorem written_binary {op : BinaryOp} (hleft : Written left.text left.lexemes)
    (hright : Written right.text right.lexemes) :
    Written (binary op left right).text (binary op left right).lexemes := by
  intro rest ls _ hls
  have hoperands := hleft _ _ rfl (Lexes.binaryOp op (hright _ _ rfl (Lexes.rightParen hls)))
  simpa using Lexes.leftParen hoperands

theorem written_call {f : FunctionName} (hf : f.Printable)
    (hargs : es = [.star] ∨ ∀ e ∈ es, Written e.text e.lexemes) :
    Written (call f es).text (call f es).lexemes := by
  intro rest ls _ hls
  have hclose := Lexes.rightParen hls
  rcases hargs with rfl | hargs
  · have hopen := Lexes.leftParen (Lexes.star hclose (by decide))
    simpa [listTexts, listLexemes, commaSeparated, Lexeme.separated]
      using lexes_functionName hf rfl hopen
  · have hopen := Lexes.leftParen (written_list hargs _ _ rfl hclose)
    simpa using lexes_functionName hf rfl hopen

theorem written_isIn {form : ListForm} (htarget : Written target.text target.lexemes)
    (hlist : ∀ e ∈ list, Written e.text e.lexemes) :
    Written (isIn target list negated form).text (isIn target list negated form).lexemes := by
  intro rest ls _ hls
  have hclose := Lexes.rightParen hls
  have hitems := written_list hlist
  cases form with
  | paren =>
      have hopen := Lexes.leftParen (hitems _ _ rfl (Lexes.rightParen hclose))
      simpa using lexes_predicate "IN" negated htarget rfl hopen
  | bracket =>
      have hopen := Lexes.leftBracket (hitems _ _ rfl (Lexes.rightBracket hclose))
      simpa using lexes_predicate "IN" negated htarget rfl hopen
  | container =>
      simpa
        using lexes_predicate "IN" negated htarget rfl (hitems _ _ rfl hclose)

theorem written_overlaps (hleft : Written left.text left.lexemes)
    (hright : Written right.text right.lexemes) :
    Written (overlaps left right negated).text (overlaps left right negated).lexemes := by
  intro rest ls _ hls
  have hrest := hright _ _ rfl (Lexes.rightParen hls)
  simpa using lexes_predicate "OVERLAPS" negated hleft rfl hrest

theorem written_like {escape : Option Expr} (htarget : Written target.text target.lexemes)
    (hpattern : Written pattern.text pattern.lexemes)
    (hescape : ∀ e ∈ escape, Written e.text e.lexemes) :
    Written (like target pattern escape negated).text
      (like target pattern escape negated).lexemes := by
  intro rest ls _ hls
  have hclose := Lexes.rightParen hls
  cases escape with
  | none =>
      have hrest := hpattern _ _ rfl hclose
      simpa [escapeText, escapeLexemes]
        using lexes_predicate "LIKE" negated htarget rfl hrest
  | some escape =>
      have hword := Lexes.keyword (w := "ESCAPE") rfl (hescape escape rfl _ _ rfl hclose)
      have hrest := hpattern _ _ rfl hword
      simpa [escapeText, escapeLexemes]
        using lexes_predicate "LIKE" negated htarget rfl hrest

theorem written_between (htarget : Written target.text target.lexemes)
    (hlow : Written low.text low.lexemes) (hhigh : Written high.text high.lexemes) :
    Written (between target low high negated).text (between target low high negated).lexemes := by
  intro rest ls _ hls
  have hword := Lexes.keyword (w := "AND") rfl (hhigh _ _ rfl (Lexes.rightParen hls))
  have hrest := hlow _ _ rfl hword
  simpa using lexes_predicate "BETWEEN" negated htarget rfl hrest

/-- The word that negates `IS` comes after it. -/
theorem written_isValue (htarget : Written target.text target.lexemes)
    (hvalue : Written value.text value.lexemes) :
    Written (isValue target value negated).text (isValue target value negated).lexemes := by
  intro rest ls _ hls
  have hrest := lexes_negation negated (hvalue _ _ rfl (Lexes.rightParen hls))
  have hopen := Lexes.leftParen (htarget _ _ rfl (Lexes.keyword (w := "IS") rfl hrest))
  simpa using hopen

theorem written_regexp (htarget : Written target.text target.lexemes)
    (hpattern : Written pattern.text pattern.lexemes) :
    Written (regexp target pattern negated).text (regexp target pattern negated).lexemes := by
  intro rest ls _ hls
  have hrest := hpattern _ _ rfl (Lexes.rightParen hls)
  simpa using lexes_predicate "REGEXP" negated htarget rfl hrest

theorem written_array (hitems : ∀ e ∈ es, Written e.text e.lexemes) :
    Written (array es).text (array es).lexemes := by
  intro rest ls _ hls
  have hopen := Lexes.leftBracket (written_list hitems _ _ rfl (Lexes.rightBracket hls))
  simpa using hopen

theorem written_object {fields : List (String × Expr)}
    (hfields : ∀ field ∈ fields,
      Quoted.HasPlainEscapes field.1 ∧ Written field.2.text field.2.lexemes) :
    Written (object fields).text (object fields).lexemes := by
  intro rest ls _ hls
  have hclose : Lexes ('\x7d' :: rest) (⟨.rightBrace, "\x7d"⟩ :: ls) :=
    Lexes.symbol (fun _ => rfl) hls
  have hopen : Lexes ('\x7b' :: _) (⟨.leftBrace, "\x7b"⟩ :: _) :=
    Lexes.symbol (fun _ => rfl) (written_fields hfields _ _ rfl hclose)
  simpa using hopen

end Nodes

/-- The lexer cuts the canonical text of a printable tree into the lexemes of the tree. -/
theorem Printable.written {e : Expr} (he : e.Printable) : Written e.text e.lexemes := by
  induction e using children_induction with
  | step e ih =>
      cases e with
      | literal value => exact fun rest ls => Lexes.value he
      | field path => exact fun rest ls => Lexes.path he
      | placeholder name position => exact written_placeholder he
      | unary op operand => exact written_unary he.1 (ih operand (by simp [children]) he.1)
      | binary op left right =>
          obtain ⟨hleft, hright⟩ := he
          exact written_binary (ih left (by simp [children]) hleft)
            (ih right (by simp [children]) hright)
      | call f args =>
          obtain ⟨hf, hstar | hargs⟩ := he
          · exact written_call hf (.inl hstar)
          · exact written_call hf (.inr fun e hmem => ih e hmem (allPrintable_iff.mp hargs e hmem))
      | star => cases he
      | isIn target list negated form =>
          obtain ⟨htarget, hlist, -⟩ := he
          exact written_isIn (ih target (by simp [children]) htarget) fun e hmem =>
            ih e (List.mem_cons_of_mem _ hmem) (allPrintable_iff.mp hlist e hmem)
      | overlaps left right negated =>
          obtain ⟨hleft, hright, -⟩ := he
          exact written_overlaps (ih left (by simp [children]) hleft)
            (ih right (by simp [children]) hright)
      | like target pattern escape negated =>
          obtain ⟨htarget, hpattern, hescape⟩ := he
          refine written_like (ih target (by simp [children]) htarget)
            (ih pattern (by simp [children]) hpattern) ?_
          rintro escape rfl
          exact ih escape (by simp [children]) hescape
      | between target low high negated =>
          obtain ⟨htarget, hlow, hhigh⟩ := he
          exact written_between (ih target (by simp [children]) htarget)
            (ih low (by simp [children]) hlow) (ih high (by simp [children]) hhigh)
      | isValue target value negated =>
          obtain ⟨htarget, hvalue⟩ := he
          exact written_isValue (ih target (by simp [children]) htarget)
            (ih value (by simp [children]) hvalue)
      | regexp target pattern negated =>
          obtain ⟨htarget, hpattern⟩ := he
          exact written_regexp (ih target (by simp [children]) htarget)
            (ih pattern (by simp [children]) hpattern)
      | array items =>
          exact written_array fun e hmem => ih e hmem (allPrintable_iff.mp he e hmem)
      | object fields =>
          refine written_object fun field hmem => ?_
          obtain ⟨hkey, hvalue⟩ := fieldsPrintable_iff.mp he field hmem
          exact ⟨hkey, ih field.2 (List.mem_map_of_mem hmem) hvalue⟩

end Expr

end DocStore
