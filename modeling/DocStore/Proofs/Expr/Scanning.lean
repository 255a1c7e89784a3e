import DocStore.Proofs.Expr.Encoding

/-!
# Scanning bytes for characters

Main statements: `Lexer.scan_eq` and `Lexer.lexFrom_eq`, and for whole sources `Token.lex_eq`.  Where a
character starts, the lexer finds in the bytes the token that stands there in the text, and it is then
where a character starts again.

This is plain for all but texts in quotes.  A backslash hides one byte, and with a longer character
after it the lexer goes on from inside of that character.  It finds the same quote or backslash next
(`find?_skip`), because neither is a byte of such a character.
-/

namespace DocStore

namespace Lexer

open Token

variable {bytes : ByteArray} {pos start place stop n : Nat} {p : Char → Bool} {quote c d : Char}
  {as cs rest : List Char} {bs more : List UInt8} {kind : TokenKind} {afterStep : Bool}
  {width : OffsetWidth} {last : Option Token} {error : ParseError}

/-! ## Tests -/

theorem IsAscii.mono {q : Char → Bool} (hq : IsAscii q) (h : ∀ c, p c = true → q c = true) :
    IsAscii p := fun c hc => hq c (h c hc)

/-- A test for one of a few ASCII characters. -/
theorem isAscii_of_mem (ds : List Char) (hds : ds.all (fun d => decide (d.toNat < 128)) = true)
    (hp : ∀ c, p c = true → c ∈ ds) : IsAscii p := fun c hc =>
  of_decide_eq_true (List.all_eq_true.mp hds c (hp c hc))

theorem isAscii_isBlank : IsAscii isBlank :=
  isAscii_of_mem [' ', '\t', '\r', '\n'] rfl fun c hc => by
    simpa [isBlank, or_assoc] using hc

/-- The last letter is the last of the characters of names. -/
theorem isAscii_isNameChar : IsAscii Segment.isNameChar := by
  intro c hc
  have hle : ∀ last : Char, last.toNat < 128 → c.val ≤ last.val → c.toNat < 128 :=
    fun last hlast h => Nat.lt_of_le_of_lt (UInt32.le_iff_toNat_le.mp h) hlast
  have hc : (c.isUpper || c.isLower || c.isDigit || decide (c = '_')) = true := hc
  rw [Bool.or_eq_true, Bool.or_eq_true, Bool.or_eq_true] at hc
  rcases hc with ((hupper | hlower) | hdigit) | hunderscore
  · exact hle 'Z' (by decide) (of_decide_eq_true hupper).2
  · exact hle 'z' (by decide) (of_decide_eq_true (Bool.and_eq_true_iff.mp hlower).2)
  · exact hle '9' (by decide) (of_decide_eq_true (Bool.and_eq_true_iff.mp hdigit).2)
  · obtain rfl := of_decide_eq_true hunderscore
    decide

theorem isAscii_isNameStart : IsAscii Segment.isNameStart :=
  isAscii_isNameChar.mono fun _ => isNameChar_of_isNameStart

theorem isAscii_isDigit : IsAscii Char.isDigit :=
  isAscii_isNameChar.mono fun c hc => by
    rw [Segment.isNameChar, Char.isAlphanum, hc, Bool.or_true, Bool.true_or]

/-! ## Runs -/

theorem run_eq (hp : IsAscii p) {h : pos ≤ bytes.size} (hcs : Remains bytes pos cs) :
    run p bytes pos h = (cs.takeWhile p).length := by
  induction cs generalizing pos with
  | nil =>
      have hsize : ¬pos < bytes.size := by
        rw [hcs.size]
        exact Nat.lt_irrefl _
      rw [run, dif_neg hsize]
      rfl
  | cons c cs ih =>
      rw [run, dif_pos hcs.lt, hcs.test hp]
      split
      · next hc =>
          have htail := utf8Size_of_lt (hp c hc) ▸ hcs.tail
          rw [ih htail, List.takeWhile_cons_of_pos hc, List.length_cons]
      · next hc => rw [List.takeWhile_cons_of_neg hc, List.length_nil]

theorem byteLength_takeWhile (hp : IsAscii p) (cs : List Char) :
    byteLength (cs.takeWhile p) = (cs.takeWhile p).length := by
  induction cs with
  | nil => rfl
  | cons c cs ih =>
      by_cases hc : p c = true
      · rw [List.takeWhile_cons_of_pos hc, byteLength_cons, utf8Size_of_lt (hp c hc), ih,
          List.length_cons, Nat.add_comm]
      · rw [List.takeWhile_cons_of_neg hc]
        rfl

/-- A run of ASCII characters is as many bytes. -/
theorem Remains.drop_takeWhile (hp : IsAscii p) (h : Remains bytes pos cs) :
    Remains bytes (pos + (cs.takeWhile p).length) (cs.drop (cs.takeWhile p).length) := by
  have hsplit : cs.takeWhile p ++ cs.drop (cs.takeWhile p).length = cs :=
    List.prefix_iff_eq_append.mp (List.takeWhile_prefix p)
  have happend := (hsplit.symm ▸ h).append
  rwa [byteLength_takeWhile hp] at happend

/-! ## Searching -/

/-- Bytes that do not pass are passed over, whether or not they are whole characters. -/
theorem find?_skip (hbs : ∀ b ∈ bs, p (Char.ofUInt8 b) = false) {h : pos ≤ bytes.size}
    (hend : pos + bs.length ≤ bytes.size) (hdrop : bytes.data.toList.drop pos = bs ++ more) :
    find? p bytes pos h = find? p bytes (pos + bs.length) hend := by
  induction bs generalizing pos with
  | nil => rfl
  | cons b bs ih =>
      have hlt : pos < bytes.size := by
        rw [List.length_cons] at hend
        omega
      rw [List.drop_eq_getElem_cons hlt, List.cons_append, List.cons.injEq] at hdrop
      obtain ⟨hb, hmore⟩ := hdrop
      have hnot : ¬p (Char.ofUInt8 bytes[pos]) = true := by
        have hget : bytes[pos] = b := hb
        rw [hget, hbs b List.mem_cons_self]
        exact Bool.false_ne_true
      have hnext : pos + 1 + bs.length = pos + (b :: bs).length := by
        rw [List.length_cons]
        omega
      rw [find?, dif_pos hlt, if_neg hnot,
        ih (fun b hb => hbs b (List.mem_cons_of_mem _ hb)) (hnext ▸ hend) hmore]
      simp only [hnext]

theorem find?_of_pass (hp : IsAscii p) (hc : p c = true) {h : pos ≤ bytes.size}
    (hcs : Remains bytes pos (c :: cs)) : find? p bytes pos h = some pos := by
  rw [find?, dif_pos hcs.lt, if_pos ((hcs.test hp hcs.lt).trans hc)]

theorem find?_nil {h : pos ≤ bytes.size} (hcs : Remains bytes pos []) :
    find? p bytes pos h = none := by
  have hsize : ¬pos < bytes.size := by
    rw [hcs.size]
    exact Nat.lt_irrefl _
  rw [find?, dif_neg hsize]

/-- After the first byte of a character nothing of it passes. -/
theorem find?_inside (hp : IsAscii p) {h : pos + 1 ≤ bytes.size}
    (hcs : Remains bytes pos (c :: cs)) :
    find? p bytes (pos + 1) h = find? p bytes (pos + c.utf8Size) hcs.tail.le := by
  obtain ⟨b, more, hbytes, hmore⟩ : ∃ b more, String.utf8EncodeChar c = b :: more
      ∧ ∀ b ∈ more, 128 ≤ b.toNat := by
    by_cases hc : c.toNat < 128
    · exact ⟨_, _, utf8EncodeChar_of_lt hc, List.forall_mem_nil _⟩
    · obtain ⟨b, more, hbytes, -, hmore⟩ := exists_utf8EncodeChar (Nat.not_lt.mp hc)
      exact ⟨b, more, hbytes, hmore⟩
  have hsize : pos + 1 + more.length = pos + c.utf8Size := by
    rw [← String.length_utf8EncodeChar, hbytes, List.length_cons]
    omega
  have hdrop : bytes.data.toList.drop (pos + 1) = more ++ encoding cs := by
    rw [← List.drop_drop, hcs.drop, encoding_cons, hbytes]
    rfl
  rw [find?_skip (fun b hb => not_test_of_le hp (hmore b hb)) (hsize ▸ hcs.tail.le) hdrop]
  simp only [hsize]

theorem find?_of_not_pass (hp : IsAscii p) (hc : p c = false) {h : pos ≤ bytes.size}
    (hcs : Remains bytes pos (c :: cs)) :
    find? p bytes pos h = find? p bytes (pos + c.utf8Size) hcs.tail.le := by
  have hlt := hcs.lt
  have hnot : ¬p (Char.ofUInt8 bytes[pos]) = true := by
    rw [hcs.test hp hlt, hc]
    exact Bool.false_ne_true
  rw [find?, dif_pos hcs.lt, if_neg hnot, find?_inside hp hcs]

/-! ## Numbers -/

/-- What is found at a position is so many characters of the text there, a byte each. -/
structure Measures (found : Option Nat) (bytes : ByteArray) (pos : Nat) (cs : List Char)
    (length : Nat) : Prop where
  found : found = if length = 0 then none else some (pos + length)
  remains : Remains bytes (pos + length) (cs.drop length)

namespace Measures

variable {found : Option Nat} {length : Nat}

theorem nothing (h : Remains bytes pos cs) : Measures none bytes pos cs 0 := ⟨rfl, h⟩

theorem getD (h : Measures found bytes pos cs length) : found.getD pos = pos + length := by
  rw [h.found]
  split
  · next hzero => rw [hzero]; rfl
  · rfl

theorem isSome (h : Measures found bytes pos cs length) : found.isSome = (length != 0) := by
  rw [h.found]
  split
  · next hzero => rw [hzero]; rfl
  · next hpos => exact (bne_iff_ne.mpr hpos).symm

end Measures

theorem any_head?_isDigit (cs : List Char) : cs.head?.any Char.isDigit = startsWithDigit cs := by
  cases cs <;> rfl

theorem digitsEnd_eq {h : pos ≤ bytes.size} (hcs : Remains bytes pos cs) :
    digitsEnd bytes pos h = pos + digitRun cs := by
  rw [digitsEnd, run_eq isAscii_isDigit hcs, digitRun]

theorem remains_digitRun (hcs : Remains bytes pos cs) :
    Remains bytes (pos + digitRun cs) (cs.drop (digitRun cs)) := hcs.drop_takeWhile isAscii_isDigit

/-- Digits behind what has been passed already. -/
theorem measures_digits {found : Option Nat} {n : Nat} (hn : 0 < n)
    (hcs : Remains bytes (pos + n) (cs.drop n))
    (hfound : found = some (pos + n + digitRun (cs.drop n))) :
    Measures found bytes pos cs (n + digitRun (cs.drop n)) := by
  have hdigits := remains_digitRun hcs
  rw [List.drop_drop, Nat.add_assoc] at hdigits
  refine ⟨?_, hdigits⟩
  rw [hfound, if_neg (by omega), Nat.add_assoc]

theorem any_peek?_isDigit (hcs : Remains bytes pos cs) :
    (peek? bytes pos).any Char.isDigit = startsWithDigit cs :=
  (hcs.any_peek? isAscii_isDigit).trans (any_head?_isDigit cs)

theorem measures_fraction (hcs : Remains bytes pos cs) :
    Measures (fractionEnd? bytes pos) bytes pos cs (fractionLength cs) := by
  have hpoint : (peek? bytes pos).any (· = '.') = cs.head?.any (· = '.') :=
    hcs.any_peek? (isAscii_of_mem ['.'] rfl fun c hc => by simpa using hc)
  fun_cases fractionLength cs
  case case1 rest hdigit =>
    have hnext := hcs.next (by decide)
    rw [fractionEnd?, dif_pos ⟨hpoint, (any_peek?_isDigit hnext).trans hdigit⟩]
    exact measures_digits Nat.one_pos hnext (congrArg some (digitsEnd_eq hnext))
  case case2 rest hdigit =>
    have hnext := hcs.next (by decide)
    rw [fractionEnd?, dif_neg fun h => hdigit ((any_peek?_isDigit hnext).symm.trans h.2)]
    exact .nothing hcs
  case case3 hother =>
    have hnone : ¬(peek? bytes pos).any (· = '.') = true := by
      rw [hpoint]
      cases cs with
      | nil => exact Bool.false_ne_true
      | cons c rest => exact fun h => hother rest (by rw [of_decide_eq_true h])
    rw [fractionEnd?, dif_neg fun h => hnone h.1]
    exact .nothing hcs

theorem isAscii_isMark : IsAscii fun c => c = 'e' || c = 'E' :=
  isAscii_of_mem ['e', 'E'] rfl fun c hc => by simpa using hc

theorem isAscii_isSign : IsAscii fun c => c = '+' || c = '-' :=
  isAscii_of_mem ['+', '-'] rfl fun c hc => by simpa using hc

theorem remains_sign (hcs : Remains bytes pos cs) :
    signWidth bytes pos = signLength cs
      ∧ Remains bytes (pos + signLength cs) (cs.drop (signLength cs)) := by
  rw [signWidth, hcs.any_peek? isAscii_isSign]
  fun_cases signLength cs
  case case1 rest => exact ⟨rfl, hcs.next (by decide)⟩
  case case2 rest => exact ⟨rfl, hcs.next (by decide)⟩
  case case3 hplus hminus =>
    refine ⟨if_neg ?_, hcs⟩
    cases cs with
    | nil => exact Bool.false_ne_true
    | cons c rest =>
        have hp : c ≠ '+' := fun h => hplus rest (by rw [h])
        have hm : c ≠ '-' := fun h => hminus rest (by rw [h])
        simp [hp, hm]

theorem measures_exponent (hcs : Remains bytes pos cs) :
    Measures (exponentEnd? bytes pos) bytes pos cs (exponentLength cs) := by
  rw [exponentEnd?, hcs.any_peek? isAscii_isMark]
  cases cs with
  | nil => exact .nothing hcs
  | cons c rest =>
      have hmark : (c :: rest).head?.any (fun c => c = 'e' || c = 'E') = true
          ↔ c = 'e' ∨ c = 'E' := by simp
      rw [exponentLength]
      by_cases hc : c = 'e' ∨ c = 'E'
      · rw [if_pos (hmark.mpr hc), if_pos hc]
        obtain ⟨hsign, hdigits⟩ := remains_sign (hcs.next (isAscii_isMark c (hmark.mpr hc)))
        have hdrop : (c :: rest).drop (1 + signLength rest) = rest.drop (signLength rest) := by
          rw [Nat.add_comm, List.drop_succ_cons]
        have hplace : pos + 1 + signWidth bytes (pos + 1) = pos + (1 + signLength rest) := by
          rw [hsign, Nat.add_assoc]
        rw [Nat.add_assoc, ← hdrop] at hdigits
        have hany := any_peek?_isDigit hdigits
        rw [← hdrop]
        simp only [hplace]
        by_cases hdigit : startsWithDigit ((c :: rest).drop (1 + signLength rest)) = true
        · rw [if_pos hdigit, dif_pos (hany.trans hdigit)]
          exact measures_digits (by omega) hdigits (congrArg some (digitsEnd_eq hdigits))
        · rw [if_neg hdigit, dif_neg fun h => hdigit (hany.symm.trans h)]
          exact .nothing hcs
      · rw [if_neg fun h => hc (hmark.mp h), if_neg hc]
        exact .nothing hcs

theorem number_eq {h : pos ≤ bytes.size} (hcs : Remains bytes pos cs) :
    number bytes pos h = ((Token.number cs).1, pos + (Token.number cs).2)
      ∧ Remains bytes (pos + (Token.number cs).2) (cs.drop (Token.number cs).2) := by
  have hwhole := remains_digitRun hcs
  have hfraction := measures_fraction hwhole
  have hexponent := measures_exponent hfraction.remains
  rw [List.drop_drop] at hexponent
  have hfound := hexponent.remains
  rw [List.drop_drop, Nat.add_assoc, Nat.add_assoc, ← Nat.add_assoc (digitRun cs)] at hfound
  refine ⟨?_, hfound⟩
  rw [number, digitsEnd_eq hcs, hfraction.getD, hexponent.getD, hfraction.isSome, hexponent.isSome]
  have hkind : ∀ m n : Nat, (if (m != 0 || n != 0) = true then TokenKind.float else .integer)
      = if m + n = 0 then .integer else .float := fun m n => by
    cases m <;> cases n <;> rfl
  refine Prod.ext (hkind _ _) ?_
  rw [Nat.add_assoc, Nat.add_assoc, ← Nat.add_assoc (digitRun cs)]
  rfl

/-! ## Strings -/

theorem stringEnd?_of_none {h : pos ≤ bytes.size} (hfind : find? (endsRun quote) bytes pos h = none) :
    stringEnd? quote bytes pos h = none := by
  rw [stringEnd?]
  split
  · rfl
  · next heq => cases hfind.symm.trans heq

/-- The lexer goes on two bytes after a backslash, if there are as many. -/
theorem stringEnd?_backslash {h : pos ≤ bytes.size}
    (hfind : find? (endsRun quote) bytes pos h = some place) (hlt : place < bytes.size)
    (hback : Char.ofUInt8 bytes[place] = '\\') :
    stringEnd? quote bytes pos h
      = stringEnd? quote bytes (min (place + 2) bytes.size) (Nat.min_le_right _ _) := by
  rw [stringEnd?]
  split
  · next heq => cases hfind.symm.trans heq
  · next found heq =>
      cases hfind.symm.trans heq
      dsimp only
      rw [if_pos hback]
      split
      · next hover => simp only [Nat.min_eq_right (Nat.le_of_lt hover)]
      · next hover => simp only [Nat.min_eq_left (Nat.le_of_not_gt hover)]

theorem stringEnd?_doubled {h : pos ≤ bytes.size}
    (hfind : find? (endsRun quote) bytes pos h = some place) (hlt : place < bytes.size)
    (hback : Char.ofUInt8 bytes[place] ≠ '\\') (hnext : peek? bytes (place + 1) = some quote) :
    stringEnd? quote bytes pos h = stringEnd? quote bytes (place + 2) (lt_of_peek? hnext) := by
  rw [stringEnd?]
  split
  · next heq => cases hfind.symm.trans heq
  · next found heq =>
      cases hfind.symm.trans heq
      dsimp only
      rw [if_neg hback, dif_pos hnext]

theorem stringEnd?_closed {h : pos ≤ bytes.size}
    (hfind : find? (endsRun quote) bytes pos h = some place) (hlt : place < bytes.size)
    (hback : Char.ofUInt8 bytes[place] ≠ '\\') (hnext : peek? bytes (place + 1) ≠ some quote) :
    stringEnd? quote bytes pos h = some (place + 1) := by
  rw [stringEnd?]
  split
  · next heq => cases hfind.symm.trans heq
  · next found heq =>
      cases hfind.symm.trans heq
      dsimp only
      rw [if_neg hback, dif_neg hnext]

/-- Where the search finds the same, the string ends in the same place. -/
theorem stringEnd?_congr {pos' : Nat} {h : pos ≤ bytes.size} {h' : pos' ≤ bytes.size}
    (hfind : find? (endsRun quote) bytes pos h = find? (endsRun quote) bytes pos' h') :
    stringEnd? quote bytes pos h = stringEnd? quote bytes pos' h' := by
  cases hfound : find? (endsRun quote) bytes pos' h' with
  | none => rw [stringEnd?_of_none (hfind.trans hfound), stringEnd?_of_none hfound]
  | some place =>
      have hlt := (find?_bounds hfound).2
      by_cases hback : Char.ofUInt8 bytes[place] = '\\'
      · rw [stringEnd?_backslash (hfind.trans hfound) hlt hback, stringEnd?_backslash hfound hlt hback]
      · by_cases hnext : peek? bytes (place + 1) = some quote
        · rw [stringEnd?_doubled (hfind.trans hfound) hlt hback hnext,
            stringEnd?_doubled hfound hlt hback hnext]
        · rw [stringEnd?_closed (hfind.trans hfound) hlt hback hnext,
            stringEnd?_closed hfound hlt hback hnext]

theorem isAscii_endsRun (hquote : quote.toNat < 128) : IsAscii (endsRun quote) := by
  intro c hc
  rcases (Bool.or_eq_true _ _ ▸ hc : decide (c = quote) = true ∨ decide (c = '\\') = true) with h | h
  · rwa [of_decide_eq_true h]
  · rw [of_decide_eq_true h]
    decide

theorem endsRun_self (quote : Char) : endsRun quote quote = true := by simp [endsRun]

theorem endsRun_backslash (quote : Char) : endsRun quote '\\' = true := by simp [endsRun]

theorem endsRun_eq_false (hquote : c ≠ quote) (hback : c ≠ '\\') : endsRun quote c = false := by
  simp [endsRun, hquote, hback]

/-- The end of what is found behind a run of characters. -/
theorem map_take_append (as cs : List Char) (pos : Nat) (found : Option Nat) :
    (found.map (· + as.length)).map (fun n => pos + byteLength ((as ++ cs).take n))
      = found.map fun n => pos + byteLength as + byteLength (cs.take n) := by
  rw [Option.map_map]
  refine congrArg (Option.map · found) (funext fun n => ?_)
  rw [Function.comp, Nat.add_comm n, List.take_length_add_append, byteLength_append, Nat.add_assoc]

section Strings

variable {h : pos ≤ bytes.size} (hquote : quote.toNat < 128) (hback : quote ≠ '\\')

include hquote

/-- A backslash hides a whole character, be it a byte or more. -/
theorem stringEnd?_escape (hcs : Remains bytes pos ('\\' :: c :: cs)) :
    stringEnd? quote bytes pos h
      = stringEnd? quote bytes (pos + 1 + c.utf8Size) (hcs.tail (c := '\\')).tail.le := by
  have hp := isAscii_endsRun hquote
  have htail : Remains bytes (pos + 1) (c :: cs) := hcs.tail
  have hmin : min (pos + 2) bytes.size = pos + 1 + 1 := Nat.min_eq_left htail.lt
  rw [stringEnd?_backslash (find?_of_pass hp (endsRun_backslash quote) hcs) hcs.lt
    (hcs.ofUInt8 (by decide) hcs.lt)]
  simp only [hmin]
  exact stringEnd?_congr (find?_inside hp htail)

theorem stringEnd?_escape_nil (hcs : Remains bytes pos ['\\']) :
    stringEnd? quote bytes pos h = none := by
  have hmin : min (pos + 2) bytes.size = pos + 1 := by
    have hsize : bytes.size = pos + 1 := hcs.size
    omega
  rw [stringEnd?_backslash (find?_of_pass (isAscii_endsRun hquote) (endsRun_backslash quote) hcs)
    hcs.lt (hcs.ofUInt8 (by decide) hcs.lt)]
  simp only [hmin]
  exact stringEnd?_of_none (find?_nil hcs.tail)

theorem stringEnd?_other (hcs : Remains bytes pos (c :: cs)) (hc : c ≠ quote) (hescape : c ≠ '\\') :
    stringEnd? quote bytes pos h = stringEnd? quote bytes (pos + c.utf8Size) hcs.tail.le :=
  stringEnd?_congr
    (find?_of_not_pass (isAscii_endsRun hquote) (endsRun_eq_false hc hescape) hcs)

include hback

theorem stringEnd?_quotes (hcs : Remains bytes pos (quote :: quote :: cs)) :
    ∃ h', stringEnd? quote bytes pos h = stringEnd? quote bytes (pos + 2) h'
      ∧ Remains bytes (pos + 2) cs := by
  have htail := hcs.next hquote
  have hnext : peek? bytes (pos + 1) = some quote := (htail.peek?_eq_iff hquote).mpr rfl
  have hfind := find?_of_pass (h := h) (isAscii_endsRun hquote) (endsRun_self quote) hcs
  have hlt := hcs.lt
  have hfirst : Char.ofUInt8 bytes[pos] ≠ '\\' := (hcs.ofUInt8 hquote hlt).symm ▸ hback
  exact ⟨_, stringEnd?_doubled hfind hcs.lt hfirst hnext, htail.next hquote⟩

theorem stringEnd?_quote (hcs : Remains bytes pos (quote :: cs)) (hcs' : cs.head? ≠ some quote) :
    stringEnd? quote bytes pos h = some (pos + 1) := by
  have htail := hcs.next hquote
  have hnext : peek? bytes (pos + 1) ≠ some quote := fun heq =>
    hcs' ((htail.peek?_eq_iff hquote).mp heq)
  have hfind := find?_of_pass (h := h) (isAscii_endsRun hquote) (endsRun_self quote) hcs
  have hlt := hcs.lt
  have hfirst : Char.ofUInt8 bytes[pos] ≠ '\\' := (hcs.ofUInt8 hquote hlt).symm ▸ hback
  exact stringEnd?_closed hfind hcs.lt hfirst hnext

/-- A string ends in the bytes where it ends in the text. -/
theorem stringEnd?_eq (hcs : Remains bytes pos cs) :
    stringEnd? quote bytes pos h
      = (Quoted.stringLength? quote cs).map fun n => pos + byteLength (cs.take n) := by
  fun_induction Quoted.stringLength? quote cs generalizing pos
  case case1 => exact stringEnd?_of_none (find?_nil hcs)
  case case2 =>
    rw [stringEnd?_quote hquote hback hcs (fun h => nomatch h)]
    exact congrArg (fun n => some (pos + n)) (byteLength_singleton_of_lt hquote).symm
  case case3 c hc =>
    by_cases hescape : c = '\\'
    · subst hescape
      exact stringEnd?_escape_nil hquote hcs
    · rw [stringEnd?_other hquote hcs hc hescape]
      exact stringEnd?_of_none (find?_nil hcs.tail)
  case case4 d rest ih =>
    have htail := (hcs.next (by decide)).tail
    have hmap := map_take_append ['\\', d] rest pos (Quoted.stringLength? quote rest)
    have hwidth : byteLength ['\\', d] = 1 + d.utf8Size := by
      rw [byteLength_cons, byteLength_singleton]
      rfl
    rw [hwidth, ← Nat.add_assoc] at hmap
    rw [stringEnd?_escape hquote hcs, ih htail]
    exact hmap.symm
  case case5 rest hne ih =>
    obtain ⟨h', heq, htail⟩ := stringEnd?_quotes (h := h) hquote hback hcs
    have hmap := map_take_append [quote, quote] rest pos (Quoted.stringLength? quote rest)
    have hwidth : byteLength [quote, quote] = 2 := by
      rw [byteLength_cons, byteLength_singleton, utf8Size_of_lt hquote]
    rw [hwidth] at hmap
    rw [heq, ih htail]
    exact hmap.symm
  case case6 d rest hd hne =>
    have hnext : (d :: rest).head? ≠ some quote := fun h => hd (Option.some.inj h)
    rw [stringEnd?_quote hquote hback hcs hnext]
    exact congrArg (fun n => some (pos + n)) (byteLength_singleton_of_lt hquote).symm
  case case7 c d rest hescape hc ih =>
    have hmap := map_take_append [c] (d :: rest) pos (Quoted.stringLength? quote (d :: rest))
    rw [byteLength_singleton] at hmap
    rw [stringEnd?_other hquote hcs hc hescape, ih hcs.tail]
    exact hmap.symm

end Strings

/-! ## Names between backticks -/

section Names

variable {h : pos ≤ bytes.size}

theorem backtick_lt : Quoted.backtick.toNat < 128 := by decide

theorem isAscii_isBacktick : IsAscii (· = Quoted.backtick) := fun _ hc =>
  of_decide_eq_true hc ▸ backtick_lt

theorem nameEnd?_of_none (hfind : find? (· = Quoted.backtick) bytes pos h = none) :
    nameEnd? bytes pos h = none := by
  rw [nameEnd?]
  split
  · rfl
  · next heq => cases hfind.symm.trans heq

theorem nameEnd?_doubled (hfind : find? (· = Quoted.backtick) bytes pos h = some place)
    (hnext : peek? bytes (place + 1) = some Quoted.backtick) :
    nameEnd? bytes pos h = nameEnd? bytes (place + 2) (lt_of_peek? hnext) := by
  rw [nameEnd?]
  split
  · next heq => cases hfind.symm.trans heq
  · next found heq =>
      cases hfind.symm.trans heq
      exact dif_pos hnext

theorem nameEnd?_closed (hfind : find? (· = Quoted.backtick) bytes pos h = some place)
    (hnext : peek? bytes (place + 1) ≠ some Quoted.backtick) :
    nameEnd? bytes pos h = some (place + 1) := by
  rw [nameEnd?]
  split
  · next heq => cases hfind.symm.trans heq
  · next found heq =>
      cases hfind.symm.trans heq
      exact dif_neg hnext

theorem nameEnd?_congr {pos' : Nat} {h' : pos' ≤ bytes.size}
    (hfind : find? (· = Quoted.backtick) bytes pos h = find? (· = Quoted.backtick) bytes pos' h') :
    nameEnd? bytes pos h = nameEnd? bytes pos' h' := by
  cases hfound : find? (· = Quoted.backtick) bytes pos' h' with
  | none => rw [nameEnd?_of_none (hfind.trans hfound), nameEnd?_of_none hfound]
  | some place =>
      by_cases hnext : peek? bytes (place + 1) = some Quoted.backtick
      · rw [nameEnd?_doubled (hfind.trans hfound) hnext, nameEnd?_doubled hfound hnext]
      · rw [nameEnd?_closed (hfind.trans hfound) hnext, nameEnd?_closed hfound hnext]

theorem nameEnd?_other (hcs : Remains bytes pos (c :: cs)) (hc : c ≠ Quoted.backtick) :
    nameEnd? bytes pos h = nameEnd? bytes (pos + c.utf8Size) hcs.tail.le :=
  nameEnd?_congr (find?_of_not_pass isAscii_isBacktick (decide_eq_false hc) hcs)

theorem nameEnd?_backtick (hcs : Remains bytes pos (Quoted.backtick :: cs))
    (hcs' : cs.head? ≠ some Quoted.backtick) : nameEnd? bytes pos h = some (pos + 1) := by
  have hnext : peek? bytes (pos + 1) ≠ some Quoted.backtick := fun heq =>
    hcs' (((hcs.next backtick_lt).peek?_eq_iff backtick_lt).mp heq)
  exact nameEnd?_closed (find?_of_pass isAscii_isBacktick (decide_eq_true rfl) hcs) hnext

/-- A name between backticks ends in the bytes where it ends in the text. -/
theorem nameEnd?_eq (hcs : Remains bytes pos cs) :
    nameEnd? bytes pos h
      = (Quoted.nameLength? cs).map fun n => pos + byteLength (cs.take n) := by
  have hsingle := byteLength_singleton_of_lt backtick_lt
  fun_induction Quoted.nameLength? cs generalizing pos
  case case1 => exact nameEnd?_of_none (find?_nil hcs)
  case case2 =>
    rw [nameEnd?_backtick hcs (fun h => nomatch h)]
    exact congrArg (fun n => some (pos + n)) hsingle.symm
  case case3 c hc =>
    rw [nameEnd?_other hcs hc]
    exact nameEnd?_of_none (find?_nil hcs.tail)
  case case4 rest ih =>
    have htail := hcs.next backtick_lt
    have hnext := (htail.peek?_eq_iff backtick_lt).mpr rfl
    have hmap := map_take_append [Quoted.backtick, Quoted.backtick] rest pos (Quoted.nameLength? rest)
    have hwidth : byteLength [Quoted.backtick, Quoted.backtick] = 2 := by
      rw [byteLength_cons, hsingle, utf8Size_of_lt backtick_lt]
    rw [hwidth] at hmap
    rw [nameEnd?_doubled (find?_of_pass isAscii_isBacktick (decide_eq_true rfl) hcs) hnext,
      ih (htail.next backtick_lt)]
    exact hmap.symm
  case case5 d rest hd =>
    have hnext : (d :: rest).head? ≠ some Quoted.backtick := fun h => hd (Option.some.inj h)
    rw [nameEnd?_backtick hcs hnext]
    exact congrArg (fun n => some (pos + n)) hsingle.symm
  case case6 c d rest hc ih =>
    have hmap := map_take_append [c] (d :: rest) pos (Quoted.nameLength? (d :: rest))
    rw [byteLength_singleton] at hmap
    rw [nameEnd?_other hcs hc, ih hcs.tail]
    exact hmap.symm

end Names

/-! ## Tokens -/

theorem lt_of_operator? {next : Option Char} (h : operator? c next = some (kind, n)) :
    c.toNat < 128 := by
  unfold operator? at h
  split at h
  all_goals first
    | decide
    | cases h

/-- The second characters of operators. -/
def operatorEnds : List Char := ['*', '=', '>', '<', '&', '|']

theorem lt_of_mem_operatorEnds (h : d ∈ operatorEnds) : d.toNat < 128 := by
  have hall : operatorEnds.all (fun d => decide (d.toNat < 128)) = true := rfl
  exact of_decide_eq_true (List.all_eq_true.mp hall d h)

theorem operator?_of_not_end {next : Option Char} (h : ∀ d ∈ operatorEnds, next ≠ some d) :
    operator? c next = operator? c none := by
  simp only [operatorEnds, List.forall_mem_cons] at h
  unfold operator?
  split
  all_goals simp_all

/-- A byte of a longer character is no part of an operator. -/
theorem operator?_peek? (hcs : Remains bytes pos cs) :
    operator? c (peek? bytes pos) = operator? c cs.head? := by
  by_cases h : ∃ d ∈ operatorEnds, cs.head? = some d
  · obtain ⟨d, hd, hnext⟩ := h
    rw [hnext, (hcs.peek?_eq_iff (lt_of_mem_operatorEnds hd)).mpr hnext]
  · have hhead : ∀ d ∈ operatorEnds, cs.head? ≠ some d := fun d hd heq => h ⟨d, hd, heq⟩
    have hpeek : ∀ d ∈ operatorEnds, peek? bytes pos ≠ some d := fun d hd heq =>
      hhead d hd ((hcs.peek?_eq_iff (lt_of_mem_operatorEnds hd)).mp heq)
    rw [operator?_of_not_end hhead, operator?_of_not_end hpeek]

theorem characterAt_eq {h : start < bytes.size} (hcs : Remains bytes start (c :: rest)) :
    characterAt bytes start h = c := by
  have htext := @Remains.textOf? bytes start (c :: rest) [] (by rwa [List.append_nil])
  rw [← hcs.size] at htext
  rw [characterAt, htext, Option.bind_some, String.toList_ofList]
  rfl

/-- The word that a name is, the rest of it being what follows its first character. -/
theorem word_eq (hcs : Remains bytes start (c :: rest)) (hname : Segment.isNameStart c = true) :
    run Segment.isNameChar bytes start hcs.le = 1 + nameRun rest
      ∧ byteLength ((c :: rest).take (1 + nameRun rest)) = 1 + nameRun rest := by
  have htake : (c :: rest).takeWhile Segment.isNameChar = (c :: rest).take (1 + nameRun rest) := by
    rw [List.takeWhile_cons_of_pos (isNameChar_of_isNameStart hname), Nat.add_comm,
      List.take_succ_cons, nameRun, ← List.prefix_iff_eq_take.mp (List.takeWhile_prefix _)]
  have hlength : ((c :: rest).takeWhile Segment.isNameChar).length = 1 + nameRun rest := by
    rw [List.takeWhile_cons_of_pos (isNameChar_of_isNameStart hname), List.length_cons, nameRun,
      Nat.add_comm]
  rw [run_eq isAscii_isNameChar hcs, ← htake, byteLength_takeWhile isAscii_isNameChar, hlength]
  exact ⟨rfl, rfl⟩

/-- So many characters are as many bytes if their end is that far. -/
theorem byteLength_take (hcs : Remains bytes pos cs) (hend : Remains bytes (pos + n) (cs.drop n)) :
    byteLength (cs.take n) = n := by
  have hsize := hcs.size
  rw [← List.take_append_drop n cs, byteLength_append, hend.size] at hsize
  omega

/-- An operator has a byte for each of its characters. -/
theorem byteLength_operator (h : operator? c rest.head? = some (kind, n)) :
    byteLength ((c :: rest).take n) = n := by
  have hc := utf8Size_of_lt (lt_of_operator? h)
  obtain ⟨hpos, hle⟩ := operator?_length h
  obtain ⟨n, rfl⟩ := Nat.exists_eq_succ_of_ne_zero (Nat.ne_of_gt hpos)
  rw [List.take_succ_cons, byteLength_cons, hc, Nat.add_comm]
  refine congrArg Nat.succ ?_
  by_cases hend : ∃ d ∈ operatorEnds, rest.head? = some d
  · obtain ⟨d, hd, hnext⟩ := hend
    obtain ⟨more, rfl⟩ := List.head?_eq_some_iff.mp hnext
    rcases Nat.le_one_iff_eq_zero_or_eq_one.mp (Nat.le_of_succ_le_succ (Nat.add_comm 1 1 ▸ hle))
      with rfl | rfl
    · rfl
    · exact byteLength_singleton_of_lt (lt_of_mem_operatorEnds hd)
  · rw [operator?_of_not_end fun d hd heq => hend ⟨d, hd, heq⟩] at h
    have hnone := (operator?_length h).2
    obtain rfl : n = 0 := by simpa using hnone
    rfl

/-- No token starts with what is not an ASCII character. -/
theorem starts_nothing (hc : ¬c.toNat < 128) :
    Segment.isNameStart c = false ∧ c.isDigit = false ∧ c ≠ '.' ∧ ¬(c = '"' ∨ c = '\'')
      ∧ c ≠ Quoted.backtick ∧ ∀ next, operator? c next = none := by
  have hne : ∀ d : Char, d.toNat < 128 → c ≠ d := fun d hd heq => hc (heq ▸ hd)
  refine ⟨Bool.eq_false_iff.mpr fun h => hc (isAscii_isNameStart c h),
    Bool.eq_false_iff.mpr fun h => hc (isAscii_isDigit c h), hne _ (by decide),
    not_or.mpr ⟨hne _ (by decide), hne _ (by decide)⟩, hne _ backtick_lt, fun next => ?_⟩
  cases hfound : operator? c next with
  | none => rfl
  | some found => exact absurd (lt_of_operator? hfound) hc

/-- The lexer finds in the bytes the token that stands in the text, and it knows where in the bytes this
token ends. -/
theorem scan_eq {h : start < bytes.size} (hcs : Remains bytes start (c :: rest)) :
    scan bytes start h afterStep = (Token.scan start afterStep c rest).map fun found =>
      (found.1, start + byteLength ((c :: rest).take found.2)) := by
  have hname := hcs.test isAscii_isNameStart h
  have hdigit := hcs.test isAscii_isDigit h
  rw [scan, Token.scan]
  by_cases hc : c.toNat < 128
  · have hnext := hcs.next hc
    have hmore : ∀ n, start + 1 + byteLength (rest.take n)
        = start + byteLength ((c :: rest).take (1 + n)) := fun n => by
      rw [Nat.add_comm 1 n, List.take_succ_cons, byteLength_cons, utf8Size_of_lt hc, Nat.add_assoc]
    simp only [hcs.ofUInt8 hc h, any_peek?_isDigit hnext, operator?_peek? hnext]
    split
    · next hstart =>
        obtain ⟨hrun, hlength⟩ := word_eq hcs hstart
        have htext := @Remains.textOf? bytes start ((c :: rest).take (1 + nameRun rest))
          ((c :: rest).drop (1 + nameRun rest)) (by rwa [List.take_append_drop])
        rw [hlength] at htext
        simp only [hrun, htext, Option.getD_some, Except.map, hlength]
    · split
      · obtain ⟨hnumber, hend⟩ := number_eq (h := hcs.le) hcs
        rw [hnumber, Except.map, byteLength_take hcs hend]
      · split
        · next hquote =>
            have hback : c ≠ '\\' := by rintro rfl; simp at hquote
            rw [stringEnd?_eq hc hback hnext]
            cases Quoted.stringLength? c rest with
            | none => rfl
            | some length => exact congrArg (fun stop => Except.ok (_, stop)) (hmore length)
        · split
          · rw [nameEnd?_eq hnext]
            cases Quoted.nameLength? rest with
            | none => rfl
            | some length => exact congrArg (fun stop => Except.ok (_, stop)) (hmore length)
          · cases hfound : operator? c rest.head? with
            | none => simp only [characterAt_eq hcs, Except.map]
            | some found => simp only [Except.map, byteLength_operator hfound]
  · have hbyte : ¬(Char.ofUInt8 bytes[start]).toNat < 128 := by
      have htest := hcs.test (p := fun c => decide (c.toNat < 128)) (fun _ => of_decide_eq_true) h
      exact of_decide_eq_false (htest.trans (decide_eq_false hc))
    simp [starts_nothing hbyte, starts_nothing hc, characterAt_eq hcs, Except.map]

/-! ## Sources -/

theorem lexFrom_end {hle : pos ≤ bytes.size} (h : ¬pos < bytes.size) :
    lexFrom width bytes pos hle last = .ok [tokenAt width bytes .eof bytes.size bytes.size] := by
  rw [lexFrom, dif_neg h]

theorem lexFrom_blank {hle : pos ≤ bytes.size} (h : pos < bytes.size)
    (hblank : isBlank (Char.ofUInt8 bytes[pos]) = true) :
    lexFrom width bytes pos hle last = lexFrom width bytes (pos + 1) h last := by
  rw [lexFrom, dif_pos h, if_pos hblank]

theorem lexFrom_error {hle : pos ≤ bytes.size} (h : pos < bytes.size)
    (hblank : ¬isBlank (Char.ofUInt8 bytes[pos]) = true)
    (hscan : scan bytes pos h (stepEndsAt pos last) = .error error) :
    lexFrom width bytes pos hle last = .error error := by
  rw [lexFrom, dif_pos h, if_neg hblank]
  split
  · next heq =>
      cases hscan.symm.trans heq
      rfl
  · next heq => cases hscan.symm.trans heq

theorem lexFrom_token {hle : pos ≤ bytes.size} (h : pos < bytes.size)
    (hblank : ¬isBlank (Char.ofUInt8 bytes[pos]) = true)
    (hscan : scan bytes pos h (stepEndsAt pos last) = .ok (kind, stop)) (hstop : stop ≤ bytes.size) :
    lexFrom width bytes pos hle last
      = match lexFrom width bytes stop hstop (some (tokenAt width bytes kind pos stop)) with
        | .error e => .error e
        | .ok tokens => .ok (tokenAt width bytes kind pos stop :: tokens) := by
  rw [lexFrom, dif_pos h, if_neg hblank]
  split
  · next heq => cases hscan.symm.trans heq
  · next heq =>
      cases hscan.symm.trans heq
      rfl

theorem slice?_eq (hcs : Remains bytes pos (as ++ cs)) :
    slice? bytes pos (pos + byteLength as) = some (String.ofList as) := by
  rw [slice?, if_pos ⟨Nat.le_add_right _ _, hcs.isBoundary, hcs.append.isBoundary⟩, hcs.textOf?]

/-- A blank in the bytes is one in the text. -/
theorem isBlank_eq (hcs : Remains bytes pos (c :: rest)) (h : pos < bytes.size) :
    isBlank (Char.ofUInt8 bytes[pos]) = isBlank c := hcs.test isAscii_isBlank h

/-- The text of a token stands behind its start, and the rest of the source behind that. -/
theorem scan_ok (hcs : Remains bytes pos (c :: rest))
    (h : Token.scan pos afterStep c rest = .ok (kind, n)) :
    scan bytes pos hcs.lt afterStep = .ok (kind, pos + byteLength (c :: rest.take (n - 1)))
      ∧ Remains bytes pos ((c :: rest.take (n - 1)) ++ rest.drop (n - 1)) := by
  refine ⟨?_, by rwa [List.cons_append, List.take_append_drop]⟩
  have hscan := @scan_eq _ _ _ _ afterStep hcs.lt hcs
  rw [h, Except.map] at hscan
  cases n with
  | zero => exact absurd (scan_bounds hscan).1 (Nat.lt_irrefl pos)
  | succ n => rwa [List.take_succ_cons] at hscan

theorem scan_error (hcs : Remains bytes pos (c :: rest))
    (h : Token.scan pos afterStep c rest = .error error) :
    scan bytes pos hcs.lt afterStep = .error error := by
  rw [scan_eq hcs, h]
  rfl

/-- A token that is found ends where a character does. -/
theorem exists_of_scan {h : pos < bytes.size} (hcs : Remains bytes pos cs)
    (hscan : scan bytes pos h afterStep = .ok (kind, stop)) :
    ∃ as bs, cs = as ++ bs ∧ stop = pos + byteLength as := by
  obtain ⟨c, rest, rfl⟩ := hcs.exists_cons h
  rw [scan_eq hcs] at hscan
  cases hfound : Token.scan pos afterStep c rest with
  | error e =>
      rw [hfound] at hscan
      cases hscan
  | ok found =>
      rw [hfound] at hscan
      cases hscan
      exact ⟨(c :: rest).take found.2, (c :: rest).drop found.2, (List.take_append_drop _ _).symm, rfl⟩

theorem tokenAt_eq (hkeep : ∀ n ≤ bytes.size, width.keep n = n) (hcs : Remains bytes pos (as ++ cs)) :
    tokenAt width bytes kind pos (pos + byteLength as)
      = ⟨kind, pos, pos + byteLength as, String.ofList as⟩ := by
  rw [tokenAt]
  simp only [hkeep _ hcs.le, hkeep _ hcs.append.le, slice?_eq hcs, Option.getD_some]

/-- Where the offsets are kept, the lexer finds in the bytes the tokens of the text. -/
theorem lexFrom_eq {hle : pos ≤ bytes.size} (hkeep : ∀ n ≤ bytes.size, width.keep n = n)
    (hcs : Remains bytes pos cs) :
    lexFrom width bytes pos hle last = Token.lexFrom pos last cs := by
  fun_induction Token.lexFrom pos last cs
  case case1 pos last =>
    have hend : bytes.size = pos := hcs.size
    have htoken := @tokenAt_eq bytes pos [] [] .eof width hkeep hcs
    rw [lexFrom_end (Nat.not_lt_of_le (Nat.le_of_eq hend)), hend]
    exact congrArg (fun token => Except.ok [token]) htoken
  case case2 pos last c rest hblank ih =>
    rw [lexFrom_blank hcs.lt ((isBlank_eq hcs hcs.lt).trans hblank), ← @ih hcs.tail.le hcs.tail]
    simp only [utf8Size_of_lt (isAscii_isBlank c hblank)]
  case case3 pos last c rest hblank e hscan =>
    exact lexFrom_error hcs.lt (isBlank_eq hcs hcs.lt ▸ hblank) (scan_error hcs hscan)
  case case4 pos last c rest hblank kind n hscan lexeme stop token e hlater ih =>
    obtain ⟨hbytes, hsplit⟩ := scan_ok hcs hscan
    rw [lexFrom_token hcs.lt (isBlank_eq hcs hcs.lt ▸ hblank) hbytes hsplit.append.le,
      tokenAt_eq hkeep hsplit, ih hsplit.append, hlater]
  case case5 pos last c rest hblank kind n hscan lexeme stop token tokens hlater ih =>
    obtain ⟨hbytes, hsplit⟩ := scan_ok hcs hscan
    rw [lexFrom_token hcs.lt (isBlank_eq hcs hcs.lt ▸ hblank) hbytes hsplit.append.le,
      tokenAt_eq hkeep hsplit, ih hsplit.append, hlater]

/-- A source that 32 bits can measure loses nothing of its offsets. -/
theorem lex_bits32 {source : String} (h : source.utf8ByteSize < UInt32.size) :
    lex .bits32 source = Token.lex source := by
  have hkeep : ∀ n ≤ source.toByteArray.size, OffsetWidth.bits32.keep n = n := fun n hn => by
    rw [String.size_toByteArray] at hn
    exact UInt32.toNat_ofNat_of_lt' (Nat.lt_of_le_of_lt hn h)
  exact (lexFrom_eq hkeep (.source source)).trans (lexFrom_eq (fun _ _ => rfl) (.source source)).symm

end Lexer

/-- The lexer finds in the bytes of a source the tokens of its text. -/
theorem Token.lex_eq (source : String) : lex source = lexFrom 0 none source.toList :=
  Lexer.lexFrom_eq (fun _ _ => rfl) (.source source)

end DocStore
