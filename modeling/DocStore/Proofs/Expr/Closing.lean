import DocStore.Proofs.Expr.Canonical

/-!
# Text before a delimiter

A blank, a comma or a closing delimiter goes on with no token.  So a text that the lexer cuts is cut
into the same lexemes with other text after it that starts with one of these (`endsOperand`), also
where it stands somewhere else in a source: what is before it matters only for a point at its start,
which may be a step of a path.

Main statements: `Token.lexFrom_append_eq`, and for a text between delimiters `Token.lexes_enclosed`.
-/

namespace DocStore

/-- What closes a list. -/
inductive Closer where
  | paren
  | bracket

namespace Closer

def char : Closer → Char
  | .paren => ')'
  | .bracket => ']'

def lexeme : Closer → Lexeme
  | .paren => .rightParen
  | .bracket => .rightBracket

/-- The character that opens what this one closes. -/
def opening : Closer → Char
  | .paren => '('
  | .bracket => '['

end Closer

namespace Token

variable {c d quote : Char} {cs rest after more : List Char} {length : Nat}

/-! ## What may come after an operand -/

/-- A delimiter is of no use to the token before it. -/
theorem cases_of_endsOperand (h : endsOperand (d :: more) = true) :
    d = ' ' ∨ d = ',' ∨ d = ')' ∨ d = ']' ∨ d = '\x7d' := by
  simpa [endsOperand] using h

theorem takeWhile_append {p : Char → Bool} (hafter : endsOperand after = true)
    (hp : [' ', ',', ')', ']', '\x7d'].all (fun d => !p d) = true) (cs : List Char) :
    (cs ++ after).takeWhile p = cs.takeWhile p := by
  have hnone : after.takeWhile p = [] := by
    cases after with
    | nil => rfl
    | cons d more =>
        have hd : p d = false := by
          simp only [List.all_cons, List.all_nil, Bool.and_true, Bool.and_eq_true,
            Bool.not_eq_true'] at hp
          rcases cases_of_endsOperand hafter with rfl | rfl | rfl | rfl | rfl <;> simp [hp]
        exact List.takeWhile_cons_of_neg (by simp [hd])
  induction cs with
  | nil => exact hnone
  | cons c cs ih => simp only [List.cons_append, List.takeWhile_cons, ih]

/-! ## Runs of characters -/

theorem digitRun_le (cs : List Char) : digitRun cs ≤ cs.length :=
  (List.takeWhile_sublist _).length_le

theorem nameRun_le (cs : List Char) : nameRun cs ≤ cs.length :=
  (List.takeWhile_sublist _).length_le

section Runs

variable (hafter : endsOperand after = true)

include hafter

theorem digitRun_after (cs : List Char) : digitRun (cs ++ after) = digitRun cs := by
  rw [digitRun, digitRun, takeWhile_append hafter rfl]

theorem nameRun_after (cs : List Char) : nameRun (cs ++ after) = nameRun cs := by
  rw [nameRun, nameRun, takeWhile_append hafter rfl]

theorem startsWithDigit_after (cs : List Char) :
    startsWithDigit (cs ++ after) = startsWithDigit cs := by
  cases cs with
  | nil =>
      cases after with
      | nil => rfl
      | cons d more =>
          rcases cases_of_endsOperand hafter with rfl | rfl | rfl | rfl | rfl <;> rfl
  | cons c cs => rfl

end Runs

/-! ## Numbers -/

theorem fractionLength_le (cs : List Char) : fractionLength cs ≤ cs.length := by
  fun_cases fractionLength cs
  case case1 rest hdigit =>
    have hrun := digitRun_le rest
    rw [List.length_cons]
    omega
  case case2 => exact Nat.zero_le _
  case case3 => exact Nat.zero_le _

theorem exponentLength_cons (c : Char) (cs : List Char) :
    exponentLength (c :: cs) = if c = 'e' ∨ c = 'E' then
      if startsWithDigit (cs.drop (signLength cs)) then
        1 + signLength cs + digitRun (cs.drop (signLength cs))
      else 0
    else 0 := rfl

theorem signLength_le (cs : List Char) : signLength cs ≤ cs.length := by
  fun_cases signLength cs <;> simp

theorem exponentLength_le (cs : List Char) : exponentLength cs ≤ cs.length := by
  cases cs with
  | nil => exact Nat.le_refl 0
  | cons c cs =>
      have hsign := signLength_le cs
      have hrun := digitRun_le (cs.drop (signLength cs))
      rw [List.length_drop] at hrun
      rw [exponentLength_cons, List.length_cons]
      split
      · split <;> omega
      · omega

/-- What is left of a number after its whole part, and after its fraction. -/
theorem number_length_le (cs : List Char) :
    digitRun cs + fractionLength (cs.drop (digitRun cs)) ≤ cs.length
      ∧ (number cs).2 ≤ cs.length := by
  have hwhole := digitRun_le cs
  have hfraction := fractionLength_le (cs.drop (digitRun cs))
  have hexponent := exponentLength_le
    (cs.drop (digitRun cs + fractionLength (cs.drop (digitRun cs))))
  rw [List.length_drop] at hfraction hexponent
  simp only [number]
  omega

theorem drop_after {n : Nat} (h : n ≤ cs.length) (after : List Char) :
    (cs ++ after).drop n = cs.drop n ++ after :=
  List.drop_append_of_le_length h

section Numbers

variable (hafter : endsOperand after = true)

include hafter

theorem fractionLength_after (cs : List Char) :
    fractionLength (cs ++ after) = fractionLength cs := by
  fun_cases fractionLength cs
  case case1 rest hdigit =>
    rw [List.cons_append, fractionLength, startsWithDigit_after hafter, if_pos hdigit,
      digitRun_after hafter]
  case case2 rest hdigit =>
    rw [List.cons_append, fractionLength, startsWithDigit_after hafter, if_neg hdigit]
  case case3 hpoint =>
    cases cs with
    | nil =>
        cases after with
        | nil => rfl
        | cons d more =>
            rcases cases_of_endsOperand hafter with rfl | rfl | rfl | rfl | rfl <;> rfl
    | cons c cs =>
        rw [List.cons_append, fractionLength]
        rintro rest heq
        exact hpoint cs (by rw [(List.cons.inj heq).1])

theorem signLength_after (cs : List Char) : signLength (cs ++ after) = signLength cs := by
  cases cs with
  | nil =>
      cases after with
      | nil => rfl
      | cons d more =>
          rcases cases_of_endsOperand hafter with rfl | rfl | rfl | rfl | rfl <;> rfl
  | cons c cs =>
      by_cases hplus : c = '+'
      · rw [hplus]
        rfl
      by_cases hminus : c = '-'
      · rw [hminus]
        rfl
      simp [signLength, hplus, hminus]

theorem exponentLength_after (cs : List Char) :
    exponentLength (cs ++ after) = exponentLength cs := by
  cases cs with
  | nil =>
      cases after with
      | nil => rfl
      | cons d more =>
          rcases cases_of_endsOperand hafter with rfl | rfl | rfl | rfl | rfl <;> rfl
  | cons c cs =>
      rw [List.cons_append, exponentLength_cons, exponentLength_cons, signLength_after hafter,
        drop_after (signLength_le cs), startsWithDigit_after hafter, digitRun_after hafter]

theorem number_after (cs : List Char) : number (cs ++ after) = number cs := by
  obtain ⟨hlength, -⟩ := number_length_le cs
  simp only [number]
  rw [digitRun_after hafter, drop_after (digitRun_le cs), fractionLength_after hafter,
    drop_after hlength, exponentLength_after hafter]

end Numbers

/-! ## Quoted text -/

theorem head?_ne_of_endsOperand (hafter : endsOperand after = true)
    (hquote : [' ', ',', ')', ']', '\x7d'].contains quote = false) : after.head? ≠ some quote := by
  cases after with
  | nil => nofun
  | cons d more =>
      intro heq
      rw [← Option.some.inj heq, Bool.eq_false_iff] at hquote
      exact hquote hafter

theorem stringLength?_after (hafter : after.head? ≠ some quote) (hback : quote ≠ '\\')
    (h : Quoted.stringLength? quote cs = some length) :
    Quoted.stringLength? quote (cs ++ after) = some length ∧ length ≤ cs.length := by
  fun_induction Quoted.stringLength? quote cs generalizing length
  case case1 => cases h
  case case2 =>
    cases h
    exact ⟨Quoted.stringLength?_quote hafter hback, Nat.le_refl 1⟩
  case case3 => cases h
  case case4 d rest ih =>
    obtain ⟨n, hn, rfl⟩ := Option.map_eq_some_iff.mp h
    obtain ⟨hmore, hlength⟩ := ih hn
    simpa [Quoted.stringLength?] using ⟨hmore, hlength⟩
  case case5 rest hquote ih =>
    obtain ⟨n, hn, rfl⟩ := Option.map_eq_some_iff.mp h
    obtain ⟨hmore, hlength⟩ := ih hn
    simpa [Quoted.stringLength?, hquote] using ⟨hmore, hlength⟩
  case case6 d rest hnot hquote =>
    cases h
    simp [Quoted.stringLength?, hquote, hnot]
  case case7 c d rest hc hquote ih =>
    obtain ⟨n, hn, rfl⟩ := Option.map_eq_some_iff.mp h
    obtain ⟨hmore, hlength⟩ := ih hn
    simpa [Quoted.stringLength?, hc, hquote] using ⟨hmore, hlength⟩

theorem nameLength?_after (hafter : after.head? ≠ some Quoted.backtick)
    (h : Quoted.nameLength? cs = some length) :
    Quoted.nameLength? (cs ++ after) = some length ∧ length ≤ cs.length := by
  fun_induction Quoted.nameLength? cs generalizing length
  case case1 => cases h
  case case2 =>
    cases h
    have hlength : Quoted.nameLength? ([].flatMap Quoted.doubleBacktick ++ Quoted.backtick :: after) = _ :=
      Quoted.nameLength?_flatMap hafter
    exact ⟨hlength, Nat.le_refl 1⟩
  case case3 => cases h
  case case4 rest ih =>
    obtain ⟨n, hn, rfl⟩ := Option.map_eq_some_iff.mp h
    obtain ⟨hmore, hlength⟩ := ih hn
    simpa [Quoted.nameLength?] using ⟨hmore, hlength⟩
  case case5 d rest hnot =>
    cases h
    simp [Quoted.nameLength?, hnot]
  case case6 c d rest hc ih =>
    obtain ⟨n, hn, rfl⟩ := Option.map_eq_some_iff.mp h
    obtain ⟨hmore, hlength⟩ := ih hn
    simpa [Quoted.nameLength?, hc] using ⟨hmore, hlength⟩

/-! ## Tokens -/

/-- The characters that operators and delimiters start with. -/
def operatorStarts : List Char :=
  ['(', ')', '[', ']', '\x7b', '\x7d', ',', '.', ':', '$', '=', '!', '<', '>', '+', '-', '*', '/', '%',
    '&', '|', '^', '~']

theorem operator?_eq_none {next : Option Char} (h : c ∉ operatorStarts) : operator? c next = none := by
  unfold operator?
  split
  all_goals first
    | rfl
    | exact absurd (by decide) h

/-- No operator has a delimiter as its second character. -/
theorem operator?_after (hafter : endsOperand after = true) (c : Char) :
    operator? c after.head? = operator? c none := by
  by_cases h : c ∈ operatorStarts
  · cases after with
    | nil => rfl
    | cons d more =>
        -- Which operators there are is seen from the list of their first characters.
        have hall : [' ', ',', ')', ']', '\x7d'].all (fun d => operatorStarts.all fun c =>
            operator? c (some d) == operator? c none) = true := rfl
        have hop := List.all_eq_true.mp (List.all_eq_true.mp hall d (List.contains_iff_mem.mp hafter)) c h
        exact eq_of_beq hop
  · rw [operator?_eq_none h, operator?_eq_none h]

/-- A token is the same with a delimiter after the text that it starts, and it ends before that. -/
theorem scan_after {offset : Nat} {afterStep : Bool} {kind : TokenKind}
    (h : scan offset afterStep c rest = .ok (kind, length)) (hafter : endsOperand after = true)
    (offset' : Nat) :
    scan offset' afterStep c (rest ++ after) = .ok (kind, length) ∧ length ≤ 1 + rest.length := by
  have hdigit : ∀ {b : Bool}, (c.isDigit || (c = '.' && startsWithDigit (rest ++ after) && b))
      = (c.isDigit || (c = '.' && startsWithDigit rest && b)) := by
    intro b
    rw [startsWithDigit_after hafter]
  revert h
  -- The cases are those of the lexer: a word, a number, a string, a quoted name, an operator.
  fun_cases scan offset afterStep c rest <;> intro h
  case case1 hname length word =>
    have hrun := nameRun_le rest
    have hword : (c :: (rest ++ after)).take (1 + nameRun rest)
        = (c :: rest).take (1 + nameRun rest) := by
      rw [← List.cons_append, List.take_append_of_le_length]
      rw [List.length_cons]
      omega
    obtain ⟨hkind, rfl⟩ := Prod.mk.inj (Except.ok.inj h)
    rw [scan, if_pos hname, nameRun_after hafter]
    simp only [hword]
    exact ⟨h, by omega⟩
  case case2 hname hnumber =>
    obtain ⟨-, hlength⟩ := number_length_le (c :: rest)
    rw [Except.ok.inj h, List.length_cons] at hlength
    rw [scan, if_neg hname, hdigit, if_pos hnumber, ← List.cons_append, number_after hafter]
    exact ⟨h, by omega⟩
  case case3 hname hnumber hquote length hfound =>
    cases h
    have hclosed : after.head? ≠ some c := by
      rcases hquote with rfl | rfl <;> exact head?_ne_of_endsOperand hafter rfl
    have hback : c ≠ '\\' := by rcases hquote with rfl | rfl <;> decide
    obtain ⟨hmore, hlength⟩ := stringLength?_after hclosed hback hfound
    rw [scan, if_neg hname, hdigit, if_neg hnumber, if_pos hquote, hmore]
    exact ⟨rfl, by omega⟩
  case case4 => cases h
  case case5 hname hnumber hquote hback length hfound =>
    cases h
    obtain ⟨hmore, hlength⟩ := nameLength?_after (head?_ne_of_endsOperand hafter rfl) hfound
    rw [scan, if_neg hname, hdigit, if_neg hnumber, if_neg hquote, if_pos hback, hmore]
    exact ⟨rfl, by omega⟩
  case case6 => cases h
  case case7 hname hnumber hquote hback found hfound =>
    cases h
    have hnext : operator? c (rest ++ after).head? = operator? c rest.head? := by
      cases rest with
      | nil => exact operator?_after hafter c
      | cons d more => rfl
    have hlength := (operator?_length hfound).2
    rw [scan, if_neg hname, hdigit, if_neg hnumber, if_neg hquote, if_neg hback, hnext, hfound]
    refine ⟨rfl, ?_⟩
    cases rest with
    | nil => exact hlength
    | cons d more =>
        simp only [List.head?_cons, Option.toList_some, List.length_cons, List.length_nil] at hlength ⊢
        omega
  case case8 => cases h

/-! ## Texts -/

/-- The lexemes of tokens, without the end of the source. -/
def lexemes (tokens : List Token) : List Lexeme :=
  (Cursor.ofTokens tokens).rest.map Token.lexeme

/-- Where a token stands in the source does not show in its lexeme. -/
theorem lexemes_cons {token token' : Token} {tokens tokens' : List Token} {ls : List Lexeme}
    (htoken : token'.lexeme = token.lexeme) (h : lexemes tokens' = lexemes tokens ++ ls) :
    lexemes (token' :: tokens') = lexemes (token :: tokens) ++ ls := by
  have hkind : token'.kind = token.kind := congrArg Lexeme.kind htoken
  simp only [lexemes, Cursor.ofTokens, List.filter_cons, hkind] at h ⊢
  split
  · rw [List.map_cons, List.map_cons, htoken, h, List.cons_append]
  · exact h

theorem stepEndsAt_stop (token : Token) (n : Nat) :
    stepEndsAt (token.stop + n) (some token) = (token.endsPathStep && n == 0) := by
  have hstop : (token.stop == token.stop + n) = (n == 0) := by
    rw [Bool.eq_iff_iff, beq_iff_eq, beq_iff_eq]
    omega
  rw [stepEndsAt, hstop]

/-- A text that is cut into tokens is cut in the same way with more text after it, and then that text
is cut.  Offsets and what is before matter only for whether a step of a path ends right there. -/
theorem lexFrom_append_eq {offset : Nat} {last : Option Token} {tokens : List Token}
    (h : lexFrom offset last cs = .ok tokens) (hafter : endsOperand after = true) {offset' : Nat}
    {last' : Option Token}
    (hlast : ∀ n, stepEndsAt (offset' + n) last' = stepEndsAt (offset + n) last) :
    ∃ taken stop next, lexFrom offset' last' (cs ++ after) = (lexFrom stop next after).map (taken ++ ·)
      ∧ ∀ later, lexemes (taken ++ later) = lexemes tokens ++ lexemes later := by
  fun_induction lexFrom offset last cs generalizing tokens offset' last'
  case case1 =>
    cases h
    refine ⟨[], offset', last', ?_, fun _ => rfl⟩
    rw [List.nil_append]
    cases lexFrom offset' last' after <;> rfl
  case case2 offset last c rest hblank ih =>
    have hlast' : ∀ n, stepEndsAt (offset' + c.utf8Size + n) last'
        = stepEndsAt (offset + c.utf8Size + n) last := by
      intro n
      rw [Nat.add_assoc, Nat.add_assoc]
      exact hlast _
    obtain ⟨taken, stop, next, hlex, hlexemes⟩ := ih h hlast'
    exact ⟨taken, stop, next, by rw [List.cons_append, lexFrom, if_pos hblank, hlex], hlexemes⟩
  case case3 => cases h
  case case4 => cases h
  case case5 offset last c rest hblank kind length hscan lexeme stop token tokens hmore ih =>
    cases h
    obtain ⟨hscan', hlength⟩ := scan_after hscan hafter offset'
    have hhere : stepEndsAt offset' last' = stepEndsAt offset last := hlast 0
    have htake : (rest ++ after).take (length - 1) = rest.take (length - 1) :=
      List.take_append_of_le_length (by omega)
    have hdrop : (rest ++ after).drop (length - 1) = rest.drop (length - 1) ++ after :=
      drop_after (by omega) after
    -- Both tokens end where the text after them starts.
    have hlast' : ∀ n, stepEndsAt (offset' + byteLength lexeme + n)
        (some ⟨kind, offset', offset' + byteLength lexeme, String.ofList lexeme⟩)
        = stepEndsAt (stop + n) (some token) := fun n =>
      (stepEndsAt_stop _ n).trans (stepEndsAt_stop token n).symm
    obtain ⟨taken, stop, next, hlex, hlexemes⟩ := ih hmore hlast'
    rw [← hhere] at hscan'
    refine ⟨⟨kind, offset', offset' + byteLength lexeme, String.ofList lexeme⟩ :: taken, stop, next,
      ?_, fun later => lexemes_cons rfl (hlexemes later)⟩
    rw [List.cons_append, lexFrom_cons (Bool.eq_false_iff.mpr hblank) hscan' htake hdrop, hlex]
    cases lexFrom stop next after <;> rfl

theorem lexFrom_append {offset : Nat} {last : Option Token} {tokens : List Token} {ls : List Lexeme}
    (h : lexFrom offset last cs = .ok tokens) (hafter : endsOperand after = true)
    (hls : Lexes after ls) {offset' : Nat} {last' : Option Token}
    (hlast : ∀ n, stepEndsAt (offset' + n) last' = stepEndsAt (offset + n) last) :
    ∃ tokens', lexFrom offset' last' (cs ++ after) = .ok tokens'
      ∧ lexemes tokens' = lexemes tokens ++ ls := by
  obtain ⟨taken, stop, next, hlex, hlexemes⟩ := lexFrom_append_eq h hafter hlast
  obtain ⟨later, hlater, rfl⟩ := hls stop next
  exact ⟨taken ++ later, by rw [hlex, hlater]; rfl, hlexemes later⟩

/-! ## Texts apart from what is before them -/

/-- As `Lexes`, where no step of a path ends right before the text. -/
def LexesApart (cs : List Char) (ls : List Lexeme) : Prop :=
  ∀ offset last, (∀ n, stepEndsAt (offset + n) last = false) →
    ∃ tokens, lexFrom offset last cs = .ok tokens ∧ lexemes tokens = ls

namespace LexesApart

variable {kind : TokenKind} {ls : List Lexeme}

/-- At the start of a source there is nothing before a text. -/
theorem lexes_source (h : LexesApart cs ls) :
    ∃ tokens, lexFrom 0 none cs = .ok tokens ∧ lexemes tokens = ls := h 0 none fun _ => rfl

theorem blank (hc : isBlank c = true) (h : LexesApart cs ls) : LexesApart (c :: cs) ls := by
  intro offset last hlast
  obtain ⟨tokens, hlex, hls⟩ := h (offset + c.utf8Size) last fun n => by
    rw [Nat.add_assoc]
    exact hlast _
  exact ⟨tokens, by rw [lexFrom, if_pos hc, hlex], hls⟩

/-- After a symbol that ends no step of a path, a text is apart from what is before. -/
theorem symbol (hsymbol : ∀ next, operator? c next = some (kind, 1))
    (hstep : Token.endsPathStep ⟨kind, 0, 0, ""⟩ = false) (h : LexesApart cs ls) :
    Lexes (c :: cs) (⟨kind, String.ofList [c]⟩ :: ls) := by
  obtain ⟨hblank, -, -, -, -, -, hkind⟩ := Lexes.operator?_plain (hsymbol none)
  have hdot : c ≠ '.' := by
    rintro rfl
    cases hsymbol (some '*')
  intro offset last
  have hscan : scan offset (stepEndsAt offset last) c cs = .ok (kind, 1) :=
    Lexes.scan_symbol (hsymbol _) (.inl hdot)
  obtain ⟨tokens, hlex, hls⟩ := h (offset + byteLength [c])
    (some ⟨kind, offset, offset + byteLength [c], String.ofList [c]⟩) fun n => by
      rw [stepEndsAt_stop ⟨_, _, offset + byteLength [c], _⟩]
      exact Bool.and_eq_false_iff.mpr (.inl hstep)
  refine ⟨_, lexFrom_scan hblank hscan rfl rfl hlex, ?_⟩
  rw [← hls]
  simp [lexemes, Cursor.ofTokens, hkind, Token.lexeme]

/-- What a text is cut into alone, with something after it. -/
theorem append {tokens : List Token} (h : lexFrom 0 none cs = .ok tokens)
    (hafter : endsOperand after = true) (hls : Lexes after ls) :
    LexesApart (cs ++ after) (lexemes tokens ++ ls) :=
  fun _ _ hlast => lexFrom_append h hafter hls fun n => hlast n

end LexesApart

end Token

end DocStore
