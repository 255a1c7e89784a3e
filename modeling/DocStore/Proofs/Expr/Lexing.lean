import DocStore.Expr.Cursor
import DocStore.Proofs.Expr.Quoting
import DocStore.Proofs.Expr.Scanning

/-!
# Cutting written text back into its lexemes

A writer of expression text puts lexemes side by side, with or without blanks between them.  The
lexer cuts them apart again, as long as no lexeme goes on into what follows it.  `Lexes cs ls` says
that the lexer cuts `cs` into the lexemes `ls`, wherever in a source `cs` stands.

There is one lemma for each kind of lexeme, and each asks of the rest of the text no more than its
first character: a word is over where no letter or digit follows it, an integer where no point and
no exponent does either, a string where no other quote does.
-/

namespace DocStore

/-- A token without its place in the source. -/
structure Lexeme where
  kind : TokenKind
  text : String
  deriving DecidableEq, Repr, Inhabited

def Token.lexeme (token : Token) : Lexeme := ⟨token.kind, token.text⟩

namespace Lexeme

/-- A word: a keyword or else an identifier. -/
def word (w : String) : Lexeme := ⟨if isKeyword w then .keyword else .identifier, w⟩

/-- The decimal digits of a number. -/
def natural (n : Nat) : Lexeme := ⟨.integer, n.repr⟩

/-- A string literal as JSON writes it. -/
def string (s : String) : Lexeme := ⟨.stringLiteral, Json.quote s⟩

end Lexeme

open Token

/-- The lexer cuts the characters into these lexemes, at whatever offset and after whatever token.
-/
def Lexes (cs : List Char) (ls : List Lexeme) : Prop :=
  ∀ offset last, ∃ tokens, lexFrom offset last cs = .ok tokens
    ∧ (Cursor.ofTokens tokens).rest.map Token.lexeme = ls

/-- One token, and then what comes after it. -/
theorem Token.lexFrom_cons {offset length : Nat} {last : Option Token} {c : Char}
    {text cs rest : List Char} {kind : TokenKind} (hblank : isBlank c = false)
    (hscan : scan offset (stepEndsAt offset last) c text = .ok (kind, length))
    (htake : text.take (length - 1) = cs) (hdrop : text.drop (length - 1) = rest) :
    lexFrom offset last (c :: text) = (lexFrom (offset + byteLength (c :: cs))
        (some ⟨kind, offset, offset + byteLength (c :: cs), String.ofList (c :: cs)⟩) rest).map
      (⟨kind, offset, offset + byteLength (c :: cs), String.ofList (c :: cs)⟩ :: ·) := by
  rw [lexFrom, hblank, if_neg Bool.false_ne_true, hscan]
  simp only [htake, hdrop]
  cases lexFrom (offset + byteLength (c :: cs)) _ rest <;> rfl

theorem Token.lexFrom_scan {offset length : Nat} {last : Option Token} {c : Char}
    {text cs rest : List Char} {kind : TokenKind} {tokens : List Token}
    (hblank : isBlank c = false)
    (hscan : scan offset (stepEndsAt offset last) c text = .ok (kind, length))
    (htake : text.take (length - 1) = cs) (hdrop : text.drop (length - 1) = rest)
    (h : lexFrom (offset + byteLength (c :: cs))
      (some ⟨kind, offset, offset + byteLength (c :: cs), String.ofList (c :: cs)⟩) rest
        = .ok tokens) :
    lexFrom offset last (c :: text)
      = .ok (⟨kind, offset, offset + byteLength (c :: cs), String.ofList (c :: cs)⟩ :: tokens) := by
  rw [lexFrom_cons hblank hscan htake hdrop, h]
  rfl

/-- A letter or digit here would belong to the word before. -/
def endsWord (rest : List Char) : Bool := !rest.head?.any Segment.isNameChar

/-- None of what an integer could go on with stands here. -/
def endsNumber (rest : List Char) : Bool :=
  !rest.head?.any fun c => c.isDigit || c == '.' || c == 'e' || c == 'E'

/-- No other quote here makes the closing one a doubled one. -/
def endsString (rest : List Char) : Bool := !rest.head?.any (· == '"')

namespace Lexes

variable {c : Char} {cs rest digits : List Char} {ls : List Lexeme} {kind : TokenKind}

theorem nil : Lexes [] [] := fun offset _ => ⟨[⟨.eof, offset, offset, ""⟩], by rw [lexFrom], rfl⟩

theorem blank (hc : isBlank c = true) (h : Lexes rest ls) : Lexes (c :: rest) ls := by
  intro offset last
  obtain ⟨tokens, hlex, hls⟩ := h (offset + c.utf8Size) last
  exact ⟨tokens, by rw [lexFrom, if_pos hc, hlex], hls⟩

/-- What the scanner takes for a token is its lexeme. -/
theorem token (hblank : isBlank c = false) (hkind : kind ≠ .eof)
    (hscan : ∀ offset afterStep, scan offset afterStep c (cs ++ rest) = .ok (kind, 1 + cs.length))
    (h : Lexes rest ls) : Lexes (c :: (cs ++ rest)) (⟨kind, String.ofList (c :: cs)⟩ :: ls) := by
  intro offset last
  obtain ⟨tokens, hlex, hls⟩ := h (offset + byteLength (c :: cs)) (some
    ⟨kind, offset, offset + byteLength (c :: cs), String.ofList (c :: cs)⟩)
  -- The lexer counts the first character, which it has taken already, into the length.
  have htake : (cs ++ rest).take (1 + cs.length - 1) = cs := by simp
  have hdrop : (cs ++ rest).drop (1 + cs.length - 1) = rest := by simp
  refine ⟨⟨kind, offset, offset + byteLength (c :: cs), String.ofList (c :: cs)⟩ :: tokens, ?_, ?_⟩
  · exact lexFrom_scan hblank (hscan offset _) htake hdrop hlex
  · rw [← hls]
    simp [Cursor.ofTokens, hkind, Token.lexeme]

/-! ## Operators and delimiters -/

/-- The characters that operators start with are no others. -/
theorem operator?_plain {next : Option Char} {found : TokenKind × Nat}
    (h : operator? c next = some found) :
    isBlank c = false ∧ Segment.isNameStart c = false ∧ c.isDigit = false ∧ c ≠ '"' ∧ c ≠ '\''
      ∧ c ≠ Quoted.backtick ∧ found.1 ≠ .eof := by
  unfold operator? at h
  split at h
  all_goals cases h
  all_goals decide

theorem scan_operator {offset : Nat} {afterStep : Bool}
    (hsymbol : operator? c (cs ++ rest).head? = some (kind, 1 + cs.length))
    (hdot : c ≠ '.' ∨ startsWithDigit (cs ++ rest) = false) :
    scan offset afterStep c (cs ++ rest) = .ok (kind, 1 + cs.length) := by
  obtain ⟨-, hname, hdigit, hdouble, hsingle, hback, -⟩ := operator?_plain hsymbol
  have hnumber : (c = '.' && startsWithDigit (cs ++ rest) && !afterStep) = false := by
    rcases hdot with hdot | hdot <;> simp [hdot]
  rw [scan, hname, hdigit, hnumber, hsymbol]
  simp [hdouble, hsingle, hback]

theorem scan_symbol {offset : Nat} {afterStep : Bool} (hsymbol : operator? c rest.head? = some (kind, 1))
    (hdot : c ≠ '.' ∨ startsWithDigit rest = false) :
    scan offset afterStep c rest = .ok (kind, 1) := by
  have hscan : scan offset afterStep c ([] ++ rest) = _ := scan_operator hsymbol hdot
  exact hscan

theorem operator (hsymbol : operator? c (cs ++ rest).head? = some (kind, 1 + cs.length))
    (hdot : c ≠ '.' ∨ startsWithDigit (cs ++ rest) = false) (h : Lexes rest ls) :
    Lexes (c :: (cs ++ rest)) (⟨kind, String.ofList (c :: cs)⟩ :: ls) := by
  obtain ⟨hblank, -, -, -, -, -, hkind⟩ := operator?_plain hsymbol
  exact token hblank hkind (fun _ _ => scan_operator hsymbol hdot) h

/-! ## Words -/

theorem nameRun_append (hcs : ∀ c ∈ cs, Segment.isNameChar c = true)
    (hrest : endsWord rest = true) : nameRun (cs ++ rest) = cs.length := by
  have hnone : rest.takeWhile Segment.isNameChar = [] := by
    cases rest with
    | nil => rfl
    | cons d more =>
        have hd : Segment.isNameChar d = false := by simpa [endsWord] using hrest
        exact List.takeWhile_cons_of_neg (by simp [hd])
  rw [nameRun, List.takeWhile_append_of_pos hcs, hnone, List.append_nil]

theorem isBlank_of_isNameStart (h : Segment.isNameStart c = true) : isBlank c = false := by
  rw [Bool.eq_false_iff]
  intro hblank
  have hcases : ((c = ' ' ∨ c = '\t') ∨ c = '\r') ∨ c = '\n' := by simpa [isBlank] using hblank
  rcases hcases with ((rfl | rfl) | rfl) | rfl <;> cases h

theorem scan_word {offset : Nat} {afterStep : Bool} (hc : Segment.isNameStart c = true)
    (hcs : ∀ d ∈ cs, Segment.isNameChar d = true) (hrest : endsWord rest = true) :
    scan offset afterStep c (cs ++ rest)
      = .ok ((Lexeme.word (String.ofList (c :: cs))).kind, 1 + cs.length) := by
  have htake : (c :: (cs ++ rest)).take (1 + cs.length) = c :: cs := by
    rw [Nat.add_comm, List.take_succ_cons, List.take_left]
  rw [scan, if_pos hc, nameRun_append hcs hrest]
  simp only [htake, Lexeme.word]

theorem word (hc : Segment.isNameStart c = true) (hcs : ∀ d ∈ cs, Segment.isNameChar d = true)
    (hrest : endsWord rest = true) (h : Lexes rest ls) :
    Lexes (c :: (cs ++ rest)) (Lexeme.word (String.ofList (c :: cs)) :: ls) := by
  refine token (isBlank_of_isNameStart hc) ?_ (fun _ _ => scan_word hc hcs hrest) h
  split <;> decide

/-! ## Integers -/

theorem not_le_of_isDigit {first : Char} (h : c.isDigit = true) (hfirst : 57 < first.toNat) :
    ¬ first.val ≤ c.val := by
  have hdigit : 48 ≤ c.toNat ∧ c.toNat ≤ 57 := by
    simpa [Char.isDigit, UInt32.le_iff_toNat_le, ← Char.toNat_val] using h
  rw [UInt32.le_iff_toNat_le, Char.toNat_val, Char.toNat_val]
  omega

/-- Digits come before the letters. -/
theorem isUpper_of_isDigit (h : c.isDigit = true) : c.isUpper = false :=
  decide_eq_false fun hupper => not_le_of_isDigit h (by decide) hupper.1

theorem isLower_of_isDigit (h : c.isDigit = true) : c.isLower = false :=
  Bool.and_eq_false_iff.mpr (.inl (decide_eq_false (not_le_of_isDigit h (by decide))))

theorem isNameStart_of_isDigit (h : c.isDigit = true) : Segment.isNameStart c = false := by
  have halpha : c.isAlpha = false :=
    Bool.or_eq_false_iff.mpr ⟨isUpper_of_isDigit h, isLower_of_isDigit h⟩
  have hunderscore : c ≠ '_' := by
    rintro rfl
    cases h
  simp [Segment.isNameStart, halpha, hunderscore]

theorem isDigit_of_isNameStart (h : Segment.isNameStart c = true) : c.isDigit = false := by
  rw [Bool.eq_false_iff]
  intro hdigit
  rw [isNameStart_of_isDigit hdigit] at h
  cases h

theorem isBlank_of_isDigit (h : c.isDigit = true) : isBlank c = false := by
  rw [Bool.eq_false_iff]
  intro hblank
  have hcases : ((c = ' ' ∨ c = '\t') ∨ c = '\r') ∨ c = '\n' := by simpa [isBlank] using hblank
  rcases hcases with ((rfl | rfl) | rfl) | rfl <;> cases h

theorem number_append (hdigits : ∀ d ∈ digits, d.isDigit = true) (hrest : endsNumber rest = true) :
    number (digits ++ rest) = (.integer, digits.length) := by
  have hhead : ∀ d, rest.head? = some d →
      d.isDigit = false ∧ d ≠ '.' ∧ d ≠ 'e' ∧ d ≠ 'E' := by
    intro d hd
    simpa [endsNumber, hd, and_assoc] using hrest
  have hwhole : digitRun (digits ++ rest) = digits.length := by
    have hnone : rest.takeWhile Char.isDigit = [] := by
      cases rest with
      | nil => rfl
      | cons d more => exact List.takeWhile_cons_of_neg (by simp [(hhead d rfl).1])
    rw [digitRun, List.takeWhile_append_of_pos hdigits, hnone, List.append_nil]
  have hfraction : fractionLength rest = 0 := by
    cases rest with
    | nil => rfl
    | cons d more =>
        unfold fractionLength
        split
        · next heq => exact absurd (List.cons.inj heq).1 (hhead d rfl).2.1
        · rfl
  have hexponent : exponentLength rest = 0 := by
    cases rest with
    | nil => rfl
    | cons d more => simp [exponentLength, (hhead d rfl).2.2]
  rw [number, hwhole, List.drop_left, hfraction, Nat.add_zero, List.drop_left, hexponent]
  rfl

theorem scan_integer {offset : Nat} {afterStep : Bool} (hc : c.isDigit = true)
    (hcs : ∀ d ∈ cs, d.isDigit = true) (hrest : endsNumber rest = true) :
    scan offset afterStep c (cs ++ rest) = .ok (.integer, 1 + cs.length) := by
  have hall : ∀ d ∈ c :: cs, d.isDigit = true := fun d hd => by
    rcases List.mem_cons.mp hd with rfl | hd
    · exact hc
    · exact hcs d hd
  have hnumber : number (c :: (cs ++ rest)) = (.integer, (c :: cs).length) :=
    number_append hall hrest
  rw [scan, isNameStart_of_isDigit hc, hc, hnumber]
  simp [Nat.add_comm]

theorem integer (hc : c.isDigit = true) (hcs : ∀ d ∈ cs, d.isDigit = true)
    (hrest : endsNumber rest = true) (h : Lexes rest ls) :
    Lexes (c :: (cs ++ rest)) (⟨.integer, String.ofList (c :: cs)⟩ :: ls) :=
  token (isBlank_of_isDigit hc) (by decide) (fun _ _ => scan_integer hc hcs hrest) h

/-- The decimal digits of a number. -/
theorem exists_digits (n : Nat) : ∃ c cs, n.repr.toList = c :: cs ∧ c.isDigit = true
    ∧ ∀ d ∈ cs, d.isDigit = true := by
  have hdigits : ∀ d ∈ n.repr.toList, d.isDigit = true := by
    intro d hd
    rw [Nat.toList_repr] at hd
    exact Nat.isDigit_of_mem_toDigits (by decide) (by decide) hd
  cases hn : n.repr.toList with
  | nil => exact absurd (Nat.toList_repr.symm.trans hn) Nat.toDigits_ne_nil
  | cons d more =>
      rw [hn] at hdigits
      exact ⟨d, more, rfl, hdigits d List.mem_cons_self,
        fun x hx => hdigits x (List.mem_cons_of_mem _ hx)⟩

theorem text_natural {n : Nat} {cs : List Char} (h : n.repr.toList = cs) :
    (⟨.integer, String.ofList cs⟩ : Lexeme) = .natural n := by
  rw [← h, String.ofList_toList]
  rfl

theorem natural (n : Nat) (hrest : endsNumber rest = true) (h : Lexes rest ls) :
    Lexes (n.repr.toList ++ rest) (Lexeme.natural n :: ls) := by
  obtain ⟨c, cs, hn, hc, hcs⟩ := exists_digits n
  rw [hn, ← text_natural hn]
  exact integer hc hcs hrest h

/-! ## Strings -/

theorem scan_string {offset length : Nat} {afterStep : Bool} (hquote : c = '"' ∨ c = '\'')
    (h : Quoted.stringLength? c rest = some length) :
    scan offset afterStep c rest = .ok (.stringLiteral, 1 + length) := by
  rw [scan, h]
  rcases hquote with rfl | rfl <;> simp [Segment.isNameStart]

theorem scan_quoted {encode : Char → List Char} {offset : Nat} {afterStep : Bool}
    (hcs : ∀ c ∈ cs, Quoted.Encodes '"' encode c) (hrest : endsString rest = true) :
    scan offset afterStep '"' ((cs.flatMap encode ++ ['"']) ++ rest)
      = .ok (.stringLiteral, 1 + (cs.flatMap encode ++ ['"']).length) := by
  have hhead : rest.head? ≠ some '"' := by
    intro heq
    rw [endsString, heq] at hrest
    cases hrest
  have hlength := Quoted.stringLength?_flatMap hcs (by decide) hhead
  rw [List.append_assoc, List.singleton_append, List.length_append]
  exact scan_string (.inl rfl) hlength

theorem quoted {encode : Char → List Char} (hcs : ∀ c ∈ cs, Quoted.Encodes '"' encode c)
    (hrest : endsString rest = true) (h : Lexes rest ls) :
    Lexes ('"' :: (cs.flatMap encode ++ '"' :: rest))
      (⟨.stringLiteral, String.ofList ('"' :: (cs.flatMap encode ++ ['"']))⟩ :: ls) := by
  have htoken := token rfl (by decide) (fun _ _ => scan_quoted hcs hrest) h
  simpa using htoken

/-- A string as JSON writes it. -/
theorem string {s : String} (hs : Quoted.HasPlainEscapes s) (hrest : endsString rest = true)
    (h : Lexes rest ls) :
    Lexes ((Json.quote s).toList ++ rest) (Lexeme.string s :: ls) := by
  have hlexes := quoted (fun c hc => Quoted.encodes_escapeChar (hs c hc)) hrest h
  simpa [Lexeme.string, Json.quote, Json.quoteChars] using hlexes

end Lexes

end DocStore
