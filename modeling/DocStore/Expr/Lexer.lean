import DocStore.Error
import DocStore.Expr.Quoted
import DocStore.Expr.Token
import DocStore.Path

/-!
# Cutting expression text into tokens

`Token.lex` reads a source from left to right.  Each token is the longest that can start where it
does, blanks separate tokens and are left out, and the list ends in one token for the end of the
source.

The lexer moves over bytes.  All that means something to it is a byte of its own, and the other bytes
are those of names and of texts in quotes; there it may well stop inside of a character, because a
backslash hides one byte of what comes after it.  Wherever the rest of the source is taken, the
position has a bound: nothing outside of the source is looked at.
-/

namespace DocStore

namespace Token

def isBlank (c : Char) : Bool := c = ' ' || c = '\t' || c = '\r' || c = '\n'

/-- The kind and length of an operator or delimiter that starts with `c`. -/
def operator? (c : Char) (next : Option Char) : Option (TokenKind × Nat) :=
  match c, next with
  | '(', _ => some (.leftParen, 1)
  | ')', _ => some (.rightParen, 1)
  | '[', _ => some (.leftBracket, 1)
  | ']', _ => some (.rightBracket, 1)
  | '\x7b', _ => some (.leftBrace, 1)
  | '\x7d', _ => some (.rightBrace, 1)
  | ',', _ => some (.comma, 1)
  | '.', some '*' => some (.dotStar, 2)
  | '.', _ => some (.dot, 1)
  | ':', _ => some (.colon, 1)
  | '$', _ => some (.dollar, 1)
  | '=', some '=' => some (.equals, 2)
  | '=', _ => some (.equals, 1)
  | '!', some '=' => some (.notEqual, 2)
  | '!', _ => some (.bang, 1)
  | '<', some '>' => some (.notEqual, 2)
  | '<', some '=' => some (.lessEqual, 2)
  | '<', some '<' => some (.shiftLeft, 2)
  | '<', _ => some (.lessThan, 1)
  | '>', some '=' => some (.greaterEqual, 2)
  | '>', some '>' => some (.shiftRight, 2)
  | '>', _ => some (.greaterThan, 1)
  | '+', _ => some (.plus, 1)
  | '-', _ => some (.minus, 1)
  | '*', some '*' => some (.doubleStar, 2)
  | '*', _ => some (.star, 1)
  | '/', _ => some (.slash, 1)
  | '%', _ => some (.percent, 1)
  | '&', some '&' => some (.andAnd, 2)
  | '&', _ => some (.amp, 1)
  | '|', some '|' => some (.orOr, 2)
  | '|', _ => some (.pipe, 1)
  | '^', _ => some (.caret, 1)
  | '~', _ => some (.tilde, 1)
  | _, _ => none

theorem operator?_length {c : Char} {next : Option Char} {kind : TokenKind} {length : Nat}
    (h : operator? c next = some (kind, length)) : 0 < length ∧ length ≤ 1 + next.toList.length := by
  unfold operator? at h
  split at h
  all_goals cases h
  all_goals simp

/-- Whether a step of a path ends right before `offset`. -/
def stepEndsAt (offset : Nat) : Option Token → Bool
  | some token => token.endsPathStep && token.stop == offset
  | none => false

end Token

namespace Lexer

open Token

variable {bytes : ByteArray} {pos start place stop : Nat} {p : Char → Bool} {quote c : Char}
  {kind : TokenKind} {afterStep : Bool}

/-! ### Bytes -/

/-- The byte at a position, if there is one, as the character that it is by itself. -/
def peek? (bytes : ByteArray) (pos : Nat) : Option Char := bytes[pos]?.map Char.ofUInt8

theorem lt_of_any_peek? (h : (peek? bytes pos).any p = true) : pos < bytes.size := by
  refine Decidable.byContradiction fun hge => ?_
  rw [peek?, getElem?_neg bytes pos hge] at h
  cases h

theorem lt_of_peek? (h : peek? bytes pos = some c) : pos < bytes.size :=
  lt_of_any_peek? (p := fun _ => true) (by rw [h]; rfl)

/-- The number of bytes in a row, from a position on, that pass a test. -/
def run (p : Char → Bool) (bytes : ByteArray) (pos : Nat) (_h : pos ≤ bytes.size) : Nat :=
  if h : pos < bytes.size then
    if p (Char.ofUInt8 bytes[pos]) then run p bytes (pos + 1) h + 1 else 0
  else 0
termination_by bytes.size - pos

theorem run_le (h : pos ≤ bytes.size) : pos + run p bytes pos h ≤ bytes.size := by
  fun_induction run p bytes pos h <;> omega

/-- The first position, from `pos` on, of a byte that passes a test. -/
def find? (p : Char → Bool) (bytes : ByteArray) (pos : Nat) (_h : pos ≤ bytes.size) : Option Nat :=
  if h : pos < bytes.size then
    if p (Char.ofUInt8 bytes[pos]) then some pos else find? p bytes (pos + 1) h
  else none
termination_by bytes.size - pos

theorem find?_bounds {h : pos ≤ bytes.size} (hfind : find? p bytes pos h = some place) :
    pos ≤ place ∧ place < bytes.size := by
  fun_induction find? p bytes pos h with
  | case1 => cases hfind; omega
  | case2 _ _ _ _ ih => have := ih hfind; omega
  | case3 => cases hfind

/-- The text of a stretch of the source, if the bytes are those of a text. -/
def textOf? (bytes : ByteArray) (start stop : Nat) : Option String :=
  String.fromUTF8? (bytes.extract start stop)

/-! ### Numbers -/

def digitsEnd (bytes : ByteArray) (pos : Nat) (h : pos ≤ bytes.size) : Nat :=
  pos + run Char.isDigit bytes pos h

/-- The end of a point and the digits after it. -/
def fractionEnd? (bytes : ByteArray) (pos : Nat) : Option Nat :=
  if h : (peek? bytes pos).any (· = '.') ∧ (peek? bytes (pos + 1)).any Char.isDigit then
    some (digitsEnd bytes (pos + 1) (lt_of_any_peek? h.1))
  else none

/-- The width of a sign. -/
def signWidth (bytes : ByteArray) (pos : Nat) : Nat :=
  if (peek? bytes pos).any fun c => c = '+' || c = '-' then 1 else 0

/-- The end of an exponent mark, a sign if there is one, and the digits after them. -/
def exponentEnd? (bytes : ByteArray) (pos : Nat) : Option Nat :=
  if (peek? bytes pos).any fun c => c = 'e' || c = 'E' then
    let digits := pos + 1 + signWidth bytes (pos + 1)
    if h : (peek? bytes digits).any Char.isDigit then
      some (digitsEnd bytes digits (Nat.le_of_lt (lt_of_any_peek? h)))
    else none
  else none

/-- The kind and the end of a number. -/
def number (bytes : ByteArray) (start : Nat) (h : start ≤ bytes.size) : TokenKind × Nat :=
  let whole := digitsEnd bytes start h
  let fraction := fractionEnd? bytes whole
  let exponent := exponentEnd? bytes (fraction.getD whole)
  (if fraction.isSome || exponent.isSome then .float else .integer,
    exponent.getD (fraction.getD whole))

/-! ### Texts in quotes -/

/-- What is looked for inside of a string. -/
def endsRun (quote c : Char) : Bool := c = quote || c = '\\'

/-- The end of a string, `pos` being inside of it.  A backslash hides the byte after it, which may not
be there. -/
def stringEnd? (quote : Char) (bytes : ByteArray) (pos : Nat) (h : pos ≤ bytes.size) : Option Nat :=
  match hfind : find? (endsRun quote) bytes pos h with
  | none => none
  | some place =>
    have hplace := find?_bounds hfind
    if Char.ofUInt8 bytes[place] = '\\' then
      if hover : place + 2 > bytes.size then stringEnd? quote bytes bytes.size (Nat.le_refl _)
      else stringEnd? quote bytes (place + 2) (Nat.le_of_not_gt hover)
    else if hdoubled : peek? bytes (place + 1) = some quote then
      stringEnd? quote bytes (place + 2) (lt_of_peek? hdoubled)
    else some (place + 1)
termination_by bytes.size - pos

/-- The end of a name between backticks, `pos` being inside of it. -/
def nameEnd? (bytes : ByteArray) (pos : Nat) (h : pos ≤ bytes.size) : Option Nat :=
  match hfind : find? (· = Quoted.backtick) bytes pos h with
  | none => none
  | some place =>
    have hplace := find?_bounds hfind
    if hdoubled : peek? bytes (place + 1) = some Quoted.backtick then
      nameEnd? bytes (place + 2) (lt_of_peek? hdoubled)
    else some (place + 1)
termination_by bytes.size - pos

/-! ### Tokens -/

/-- The character at a position; a byte where there is no text from there on. -/
def characterAt (bytes : ByteArray) (start : Nat) (h : start < bytes.size) : Char :=
  ((textOf? bytes start bytes.size).bind (·.toList.head?)).getD (Char.ofUInt8 bytes[start])

/-- The kind and the end of the token that starts at a position.  A point is part of a number where a
digit follows it and it is no step of a path. -/
def scan (bytes : ByteArray) (start : Nat) (h : start < bytes.size) (afterStep : Bool) :
    Except ParseError (TokenKind × Nat) :=
  let c := Char.ofUInt8 bytes[start]
  if Segment.isNameStart c then
    let stop := start + run Segment.isNameChar bytes start (Nat.le_of_lt h)
    let word := (textOf? bytes start stop).getD ""
    .ok (if isKeyword word then .keyword else .identifier, stop)
  else if c.isDigit || (c = '.' && (peek? bytes (start + 1)).any Char.isDigit && !afterStep) then
    .ok (number bytes start (Nat.le_of_lt h))
  else if c = '"' ∨ c = '\'' then
    match stringEnd? c bytes (start + 1) h with
    | some stop => .ok (.stringLiteral, stop)
    | none => .error (.unterminatedString start)
  else if c = Quoted.backtick then
    match nameEnd? bytes (start + 1) h with
    | some stop => .ok (.quotedIdentifier, stop)
    | none => .error (.unterminatedName start)
  else
    match operator? c (peek? bytes (start + 1)) with
    | some (kind, length) => .ok (kind, start + length)
    | none => .error (.invalidCharacter (characterAt bytes start h) start)

/-! ### Progress -/

theorem le_digitsEnd (h : pos ≤ bytes.size) : pos ≤ digitsEnd bytes pos h := Nat.le_add_right _ _

theorem lt_digitsEnd (h : pos < bytes.size) (hdigit : (Char.ofUInt8 bytes[pos]).isDigit = true) :
    pos < digitsEnd bytes pos (Nat.le_of_lt h) := by
  rw [digitsEnd, run, dif_pos h, if_pos hdigit]
  omega

theorem fractionEnd?_bounds (hstop : fractionEnd? bytes pos = some stop) :
    pos < stop ∧ stop ≤ bytes.size := by
  rw [fractionEnd?] at hstop
  split at hstop
  · next h =>
      cases hstop
      exact ⟨le_digitsEnd (lt_of_any_peek? h.1), run_le _⟩
  · cases hstop

theorem exponentEnd?_bounds (hstop : exponentEnd? bytes pos = some stop) :
    pos < stop ∧ stop ≤ bytes.size := by
  rw [exponentEnd?] at hstop
  split at hstop
  · dsimp only at hstop
    split at hstop
    · next h =>
        cases hstop
        refine ⟨Nat.lt_of_lt_of_le ?_ (le_digitsEnd _), run_le _⟩
        omega
    · cases hstop
  · cases hstop

theorem getD_bounds {found : Option Nat} (hpos : pos ≤ bytes.size)
    (hfound : ∀ stop, found = some stop → pos < stop ∧ stop ≤ bytes.size) :
    pos ≤ found.getD pos ∧ found.getD pos ≤ bytes.size := by
  cases found with
  | none => exact ⟨Nat.le_refl _, hpos⟩
  | some stop => exact ⟨Nat.le_of_lt (hfound stop rfl).1, (hfound stop rfl).2⟩

theorem number_bounds (h : start < bytes.size)
    (hstart : (Char.ofUInt8 bytes[start]).isDigit = true
      ∨ Char.ofUInt8 bytes[start] = '.' ∧ (peek? bytes (start + 1)).any Char.isDigit = true) :
    start < (number bytes start (Nat.le_of_lt h)).2
      ∧ (number bytes start (Nat.le_of_lt h)).2 ≤ bytes.size := by
  have hwhole : digitsEnd bytes start (Nat.le_of_lt h) ≤ bytes.size := run_le _
  have hfraction := getD_bounds hwhole fun _ => fractionEnd?_bounds
  have hexponent := getD_bounds hfraction.2 fun _ => exponentEnd?_bounds
  refine ⟨Nat.lt_of_lt_of_le ?_ hexponent.1, hexponent.2⟩
  rcases hstart with hdigit | ⟨hpoint, hdigit⟩
  · exact Nat.lt_of_lt_of_le (lt_digitsEnd h hdigit) hfraction.1
  · -- There are no digits before the point.
    have hrun : digitsEnd bytes start (Nat.le_of_lt h) = start := by
      rw [digitsEnd, run, dif_pos h, hpoint]
      rfl
    have hpeek : (peek? bytes start).any (· = '.') = true := by
      rw [peek?, getElem?_pos bytes start h, Option.map_some, hpoint]
      rfl
    rw [hrun, fractionEnd?, dif_pos ⟨hpeek, hdigit⟩]
    exact le_digitsEnd (lt_of_any_peek? hpeek)

theorem stringEnd?_bounds {h : pos ≤ bytes.size} (hstop : stringEnd? quote bytes pos h = some stop) :
    pos < stop ∧ stop ≤ bytes.size := by
  fun_induction stringEnd? quote bytes pos h
  case case1 => cases hstop
  case case2 ih => have := ih hstop; omega
  case case3 ih => have := ih hstop; omega
  case case4 ih => have := ih hstop; omega
  case case5 => cases hstop; omega

theorem nameEnd?_bounds {h : pos ≤ bytes.size} (hstop : nameEnd? bytes pos h = some stop) :
    pos < stop ∧ stop ≤ bytes.size := by
  fun_induction nameEnd? bytes pos h
  case case1 => cases hstop
  case case2 ih => have := ih hstop; omega
  case case3 => cases hstop; omega

theorem isNameChar_of_isNameStart (h : Segment.isNameStart c = true) :
    Segment.isNameChar c = true := by
  rw [Segment.isNameStart, Bool.or_eq_true] at h
  rw [Segment.isNameChar, Char.isAlphanum, Bool.or_eq_true, Bool.or_eq_true]
  exact h.imp_left .inl

/-- A token has a byte at least, and it ends in the source. -/
theorem scan_bounds {h : start < bytes.size} (hscan : scan bytes start h afterStep = .ok (kind, stop)) :
    start < stop ∧ stop ≤ bytes.size := by
  have hok : ∀ {found : TokenKind} {place : Nat}, start < place ∧ place ≤ bytes.size →
      (Except.ok (found, place) : Except ParseError (TokenKind × Nat)) = .ok (kind, stop) →
      start < stop ∧ stop ≤ bytes.size := by
    rintro found place hplace heq
    cases heq
    exact hplace
  revert hscan
  fun_cases scan bytes start h afterStep
  case case1 hname place word =>
    refine hok ⟨?_, run_le _⟩
    show start < start + run Segment.isNameChar bytes start _
    rw [run, dif_pos h, if_pos (isNameChar_of_isNameStart hname)]
    omega
  case case2 hname hnumber =>
    simp only [Bool.or_eq_true, Bool.and_eq_true, decide_eq_true_eq] at hnumber
    exact hok (number_bounds h (hnumber.imp_right And.left))
  case case3 place hplace => exact hok ((stringEnd?_bounds hplace).imp_left Nat.lt_of_succ_lt)
  case case5 place hplace => exact hok ((nameEnd?_bounds hplace).imp_left Nat.lt_of_succ_lt)
  case case7 found length hfound =>
    obtain ⟨hpos, hlength⟩ := operator?_length hfound
    refine hok ⟨by omega, ?_⟩
    cases hnext : peek? bytes (start + 1) with
    | none =>
        rw [hnext] at hlength
        exact Nat.le_trans (Nat.add_le_add_left hlength start) h
    | some next =>
        have := lt_of_peek? hnext
        rw [hnext, Option.toList_some, List.length_singleton] at hlength
        omega
  all_goals
    intro hscan
    cases hscan

/-! ### Sources -/

/-- How much of an offset a token keeps. -/
inductive OffsetWidth where
  | unbounded
  /-- The last 32 bits. -/
  | bits32
  deriving DecidableEq, Repr, Inhabited

def OffsetWidth.keep : OffsetWidth → Nat → Nat
  | .unbounded, offset => offset
  | .bits32, offset => (UInt32.ofNat offset).toNat

/-- Whether a text may be cut at a position: at its start, at its end, and where no byte stands that
continues a character. -/
def isBoundary (bytes : ByteArray) (pos : Nat) : Bool :=
  match bytes[pos]? with
  | some b => pos == 0 || b < 0x80 || 0xC0 ≤ b
  | none => pos == bytes.size

/-- The text of a stretch of the source, where it can be cut out. -/
def slice? (bytes : ByteArray) (start stop : Nat) : Option String :=
  if start ≤ stop ∧ isBoundary bytes start ∧ isBoundary bytes stop then textOf? bytes start stop
  else none

/-- A token with what it keeps of its offsets, and the text between these. -/
def tokenAt (width : OffsetWidth) (bytes : ByteArray) (kind : TokenKind) (start stop : Nat) : Token :=
  let start := width.keep start
  let stop := width.keep stop
  ⟨kind, start, stop, (slice? bytes start stop).getD ""⟩

/-- The tokens from a position on, `last` being the one before it. -/
def lexFrom (width : OffsetWidth) (bytes : ByteArray) (pos : Nat) (_h : pos ≤ bytes.size)
    (last : Option Token) : Except ParseError (List Token) :=
  if h : pos < bytes.size then
    if isBlank (Char.ofUInt8 bytes[pos]) then lexFrom width bytes (pos + 1) h last
    else
      match hscan : scan bytes pos h (stepEndsAt pos last) with
      | .error e => .error e
      | .ok (kind, stop) =>
        have hstop := scan_bounds hscan
        let token := tokenAt width bytes kind pos stop
        match lexFrom width bytes stop hstop.2 (some token) with
        | .error e => .error e
        | .ok tokens => .ok (token :: tokens)
  else .ok [tokenAt width bytes .eof bytes.size bytes.size]
termination_by bytes.size - pos

/-- The tokens of a source. -/
def lex (width : OffsetWidth) (source : String) : Except ParseError (List Token) :=
  lexFrom width source.toByteArray 0 (Nat.zero_le _) none

end Lexer

/-- The tokens of an expression's source, with their whole offsets. -/
def Token.lex (source : String) : Except ParseError (List Token) := Lexer.lex .unbounded source

end DocStore
