import DocStore.Proofs.Expr.Closing
import DocStore.Proofs.Expr.Reading
import DocStore.Proofs.Outcome

/-!
# What the lexer has cut

Where `Lexes` says into which lexemes a text is cut, `Cut` goes the other way: a text has been cut, and
what it starts with tells the first lexemes.  There is one lemma for each kind of lexeme, which says as
well that the rest of the text has been cut.  Where only the kind of the first lexeme is known, `Scans`
tells what the text starts with (`Cut.first`).
-/

namespace DocStore.Token

variable {c : Char} {cs rest after : List Char} {l : Lexeme} {ls : List Lexeme} {kind : TokenKind}
  {tokens : List Token} {offset length : Nat} {afterStep : Bool}

/-- Somewhere in a source, the lexer has cut the text into these lexemes. -/
def Cut (cs : List Char) (ls : List Lexeme) : Prop :=
  ∃ offset last tokens, lexFrom offset last cs = .ok tokens ∧ lexemes tokens = ls

/-- As `Cut`, where no step of a path ends right before the text. -/
def CutApart (cs : List Char) (ls : List Lexeme) : Prop :=
  ∃ offset last tokens, (∀ n, stepEndsAt (offset + n) last = false)
    ∧ lexFrom offset last cs = .ok tokens ∧ lexemes tokens = ls

/-! ## The kinds of tokens -/

/-- What a token can be, by the character that it starts with and what comes after that. -/
inductive Scans (c : Char) (rest : List Char) : TokenKind → Nat → Prop
  | word : Segment.isNameStart c = true →
      Scans c rest (Lexeme.word (String.ofList ((c :: rest).take (1 + nameRun rest)))).kind
        (1 + nameRun rest)
  | number (kind : TokenKind) (length : Nat) : kind = .integer ∨ kind = .float →
      Scans c rest kind length
  | string (length : Nat) : c = '"' ∨ c = '\'' → Quoted.stringLength? c rest = some length →
      Scans c rest .stringLiteral (1 + length)
  | name (length : Nat) : c = Quoted.backtick → Quoted.nameLength? rest = some length →
      Scans c rest .quotedIdentifier (1 + length)
  | operator (kind : TokenKind) (length : Nat) : operator? c rest.head? = some (kind, length) →
      Scans c rest kind length

theorem scans_of_scan (h : scan offset afterStep c rest = .ok (kind, length)) :
    Scans c rest kind length := by
  revert h
  fun_cases scan offset afterStep c rest <;> intro h
  case case1 hname _ _ =>
    obtain ⟨rfl, rfl⟩ := Prod.mk.inj (Except.ok.inj h)
    exact .word hname
  case case2 =>
    rw [number] at h
    obtain ⟨rfl, -⟩ := Prod.mk.inj (Except.ok.inj h)
    refine .number _ length ?_
    split
    · exact .inl rfl
    · exact .inr rfl
  case case3 hquote length hlength =>
    cases h
    exact .string length hquote hlength
  case case4 => cases h
  case case5 hback length hlength =>
    cases h
    exact .name length hback hlength
  case case6 => cases h
  case case7 hfound =>
    cases h
    exact .operator kind length hfound
  case case8 => cases h

/-- No operator is a name, a word or a literal. -/
theorem operator?_kind {next : Option Char} (h : operator? c next = some (kind, length)) :
    kind ∉ [.identifier, .quotedIdentifier, .keyword, .stringLiteral, .eof] := by
  unfold operator? at h
  split at h
  all_goals cases h
  all_goals decide

namespace Scans

/-- The lexer never takes a token for the end of the source. -/
theorem kind_ne_eof (h : Scans c rest kind length) : kind ≠ .eof := by
  cases h with
  | word =>
      rcases Lexeme.kind_word (String.ofList ((c :: rest).take (1 + nameRun rest))) with h | h
        <;> rw [h] <;> decide
  | number _ _ h => rcases h with rfl | rfl <;> decide
  | string => decide
  | name => decide
  | operator _ _ h =>
      rintro rfl
      exact operator?_kind h (by decide)

/-- Only a plain name that is no keyword is an identifier. -/
theorem identifier (h : Scans c rest .identifier length) :
    Segment.isNameStart c = true ∧ length = 1 + nameRun rest
      ∧ isKeyword (String.ofList ((c :: rest).take length)) = false := by
  generalize hkind : TokenKind.identifier = kind at h
  cases h with
  | word hname =>
      refine ⟨hname, rfl, ?_⟩
      rw [Lexeme.word] at hkind
      split at hkind
      · cases hkind
      · next hword => exact Bool.eq_false_iff.mpr hword
  | number _ _ h => rcases h with rfl | rfl <;> cases hkind
  | string => cases hkind
  | name => cases hkind
  | operator _ _ h => exact absurd (by rw [← hkind]; decide) (operator?_kind h)

theorem stringLiteral (h : Scans c rest .stringLiteral length) :
    (c = '"' ∨ c = '\'') ∧ ∃ n, Quoted.stringLength? c rest = some n ∧ length = 1 + n := by
  generalize hkind : TokenKind.stringLiteral = kind at h
  cases h with
  | word =>
      rcases Lexeme.kind_word (String.ofList ((c :: rest).take (1 + nameRun rest))) with h | h
        <;> cases hkind.trans h
  | number _ _ h => rcases h with rfl | rfl <;> cases hkind
  | string n hquote hlength => exact ⟨hquote, n, hlength, rfl⟩
  | name => cases hkind
  | operator _ _ h => exact absurd (by rw [← hkind]; decide) (operator?_kind h)

theorem quotedIdentifier (h : Scans c rest .quotedIdentifier length) :
    c = Quoted.backtick ∧ ∃ n, Quoted.nameLength? rest = some n ∧ length = 1 + n := by
  generalize hkind : TokenKind.quotedIdentifier = kind at h
  cases h with
  | word =>
      rcases Lexeme.kind_word (String.ofList ((c :: rest).take (1 + nameRun rest))) with h | h
        <;> cases hkind.trans h
  | number _ _ h => rcases h with rfl | rfl <;> cases hkind
  | string => cases hkind
  | name n hback hlength => exact ⟨hback, n, hlength, rfl⟩
  | operator _ _ h => exact absurd (by rw [← hkind]; decide) (operator?_kind h)

end Scans

/-! ## Texts -/

theorem lexemes_cons_of_ne {token : Token} (h : token.kind ≠ .eof) (tokens : List Token) :
    lexemes (token :: tokens) = token.lexeme :: lexemes tokens := by
  simp [lexemes, Cursor.ofTokens, h]

namespace Cut

theorem nil (h : Cut [] ls) : ls = [] := by
  obtain ⟨offset, last, tokens, hlex, rfl⟩ := h
  rw [lexFrom] at hlex
  cases hlex
  rfl

theorem blank (hc : isBlank c = true) (h : Cut (c :: cs) ls) : Cut cs ls := by
  obtain ⟨offset, last, tokens, hlex, hls⟩ := h
  rw [lexFrom, if_pos hc] at hlex
  exact ⟨_, _, tokens, hlex, hls⟩

/-- The token that a text starts with, and what has become of the rest. -/
theorem cons (hc : isBlank c = false) (h : Cut (c :: rest) ls) :
    ∃ offset afterStep kind length stop next later,
      scan offset afterStep c rest = .ok (kind, length)
        ∧ lexFrom stop (some next) (rest.drop (length - 1)) = .ok later
        ∧ next.kind = kind
        ∧ ls = ⟨kind, String.ofList (c :: rest.take (length - 1))⟩ :: lexemes later := by
  obtain ⟨offset, last, tokens, hlex, rfl⟩ := h
  cases hscan : scan offset (stepEndsAt offset last) c rest with
  | error e =>
      rw [lexFrom, if_neg (by simp [hc]), hscan] at hlex
      cases hlex
  | ok found =>
      obtain ⟨kind, length⟩ := found
      rw [lexFrom_cons hc hscan rfl rfl] at hlex
      obtain ⟨later, hlater, rfl⟩ := Outcome.map_eq_ok.mp hlex
      exact ⟨offset, _, kind, length, _, _, later, hscan, hlater, rfl,
        lexemes_cons_of_ne ((scans_of_scan hscan).kind_ne_eof) later⟩

theorem token (hblank : isBlank c = false)
    (hscan : ∀ offset afterStep, scan offset afterStep c (cs ++ rest) = .ok (kind, 1 + cs.length))
    (h : Cut (c :: (cs ++ rest)) ls) :
    ∃ ls', Cut rest ls' ∧ ls = ⟨kind, String.ofList (c :: cs)⟩ :: ls' := by
  obtain ⟨offset, afterStep, kind', length, stop, next, later, hscan', hlater, -, rfl⟩ :=
    h.cons hblank
  cases (hscan offset afterStep).symm.trans hscan'
  have htake : (cs ++ rest).take (1 + cs.length - 1) = cs := by simp
  have hdrop : (cs ++ rest).drop (1 + cs.length - 1) = rest := by simp
  rw [hdrop] at hlater
  rw [htake]
  exact ⟨lexemes later, ⟨_, _, later, hlater, rfl⟩, rfl⟩

theorem operator (hsymbol : operator? c (cs ++ rest).head? = some (kind, 1 + cs.length))
    (hdot : c ≠ '.' ∨ startsWithDigit (cs ++ rest) = false) (h : Cut (c :: (cs ++ rest)) ls) :
    ∃ ls', Cut rest ls' ∧ ls = ⟨kind, String.ofList (c :: cs)⟩ :: ls' := by
  obtain ⟨hblank, -, -, -, -, -, -⟩ := Lexes.operator?_plain hsymbol
  exact h.token hblank fun _ _ => Lexes.scan_operator hsymbol hdot

theorem single (hsymbol : operator? c rest.head? = some (kind, 1))
    (hdot : c ≠ '.' ∨ startsWithDigit rest = false) (h : Cut (c :: rest) ls) :
    ∃ ls', Cut rest ls' ∧ ls = ⟨kind, String.ofList [c]⟩ :: ls' := by
  have h : Cut (c :: ([] ++ rest)) ls := h
  exact h.operator hsymbol hdot

theorem symbol (hsymbol : ∀ next, operator? c next = some (kind, 1)) (h : Cut (c :: rest) ls) :
    ∃ ls', Cut rest ls' ∧ ls = ⟨kind, String.ofList [c]⟩ :: ls' := by
  refine single (hsymbol _) (.inl ?_) h
  rintro rfl
  cases hsymbol (some '*')

/-- After a comma a text is apart from what is before. -/
theorem comma (h : Cut (',' :: rest) ls) : ∃ ls', CutApart rest ls' ∧ ls = .comma :: ls' := by
  obtain ⟨offset, afterStep, kind, length, stop, next, later, hscan, hlater, hkind, rfl⟩ :=
    h.cons rfl
  have hcomma : scan offset afterStep ',' rest = .ok (.comma, 1) :=
    Lexes.scan_symbol rfl (.inl (by decide))
  cases hcomma.symm.trans hscan
  refine ⟨lexemes later, ⟨stop, some next, later, fun n => ?_, hlater, rfl⟩, rfl⟩
  rw [stepEndsAt, endsPathStep, hkind]
  rfl

theorem word {w : String} (hw : Segment.isPlainName w = true) (hrest : endsWord rest = true)
    (h : Cut (w.toList ++ rest) ls) : ∃ ls', Cut rest ls' ∧ ls = .word w :: ls' := by
  obtain ⟨c, cs, heq, hc, hcs⟩ := Lexes.exists_of_isPlainName hw
  rw [heq] at h
  have hword := h.token (Lexes.isBlank_of_isNameStart hc) fun _ _ => Lexes.scan_word hc hcs hrest
  rwa [← heq, String.ofList_toList] at hword

/-- The first lexeme is what stands after some blanks. -/
theorem first (h : Cut cs (l :: ls)) : ∃ blanks c rest length, cs = blanks ++ c :: rest
    ∧ (∀ b ∈ blanks, isBlank b = true) ∧ Scans c rest l.kind length
    ∧ l.text = String.ofList (c :: rest.take (length - 1)) ∧ Cut (rest.drop (length - 1)) ls := by
  induction cs with
  | nil => cases h.nil
  | cons c rest ih =>
      cases hc : isBlank c with
      | true =>
          obtain ⟨blanks, d, more, length, rfl, hblanks, hfirst⟩ := ih (h.blank hc)
          exact ⟨c :: blanks, d, more, length, rfl, List.forall_mem_cons.mpr ⟨hc, hblanks⟩, hfirst⟩
      | false =>
          obtain ⟨offset, afterStep, kind, length, stop, next, later, hscan, hlater, -, hls⟩ :=
            h.cons hc
          obtain ⟨rfl, rfl⟩ := List.cons.inj hls
          exact ⟨[], c, rest, length, rfl, nofun, scans_of_scan hscan, rfl,
            ⟨stop, some next, later, hlater, rfl⟩⟩

end Cut

namespace CutApart

theorem cut (h : CutApart cs ls) : Cut cs ls := by
  obtain ⟨offset, last, tokens, -, hlex, hls⟩ := h
  exact ⟨offset, last, tokens, hlex, hls⟩

theorem blank (hc : isBlank c = true) (h : CutApart (c :: cs) ls) : CutApart cs ls := by
  obtain ⟨offset, last, tokens, hapart, hlex, hls⟩ := h
  rw [lexFrom, if_pos hc] at hlex
  refine ⟨_, last, tokens, fun n => ?_, hlex, hls⟩
  rw [Nat.add_assoc]
  exact hapart _

/-- What a text is cut into alone it is cut into before a delimiter. -/
theorem append (hlex : lexFrom 0 none cs = .ok tokens) (hafter : endsOperand after = true)
    (h : CutApart (cs ++ after) ls) : ∃ ls', Cut after ls' ∧ ls = lexemes tokens ++ ls' := by
  obtain ⟨offset, last, all, hapart, hall, rfl⟩ := h
  -- Alone, nothing stands before the text, and here no step of a path does: to the lexer it is the same.
  obtain ⟨taken, stop, next, heq, hlexemes⟩ := lexFrom_append_eq hlex hafter hapart
  rw [heq] at hall
  obtain ⟨later, hlater, rfl⟩ := Outcome.map_eq_ok.mp hall
  exact ⟨lexemes later, ⟨stop, next, later, hlater, rfl⟩, hlexemes later⟩

end CutApart

end DocStore.Token
