import DocStore.Proofs.Expr.Accepted
import DocStore.Proofs.Expr.Cut

/-!
# Aliases and their texts

The name of a column is written as it is.  Main statement: `Parser.plain_of_aliasName`.  Where a name is
read from its own text, at the end of a list or before a comma, it is a plain name and no keyword.

A name that starts with a quote could be read as a literal.  That literal stands for fewer characters
than it has, so it would have to reach into the text after the name, over a comma at least, and there is
no place in the name where that comma could come from (`Decodes.ne_own`).
-/

namespace DocStore

namespace Quoted

variable {quote : Char} {cs body v w name blanks more after : List Char} {length : Nat}

/-! ## Literals in either notation -/

/-- The text between two quotes stands for these characters: some as they are, some for two of them.
Of such a pair it matters only where a comma is in it. -/
inductive Decodes : List Char → List Char → Prop
  | nil : Decodes [] []
  | char (c : Char) {body v : List Char} : Decodes body v → Decodes (c :: body) (c :: v)
  | pair (c d e : Char) {body v : List Char} : c ≠ ',' → (d = ',' → e = ',') → Decodes body v →
      Decodes (c :: d :: body) (e :: v)

theorem decodes_string (hquote : quote ≠ ',') (body : List Char) :
    Decodes body (decodeString quote body) := by
  fun_induction decodeString quote body
  case case1 => exact .nil
  case case2 c => exact .char c .nil
  case case3 d rest ih =>
    refine .pair _ _ _ (by decide) (fun hd => ?_) ih
    rw [hd]
    rfl
  case case4 c d rest _ hboth ih =>
    obtain ⟨rfl, rfl⟩ := hboth
    exact .pair _ _ _ hquote id ih
  case case5 c d rest _ _ ih => exact .char c ih

theorem decodes_name (body : List Char) : Decodes body (decodeName body) := by
  fun_induction decodeName body
  case case1 => exact .nil
  case case2 c => exact .char c .nil
  case case3 c d rest hboth ih =>
    obtain ⟨rfl, rfl⟩ := hboth
    exact .pair _ _ _ (by decide) id ih
  case case4 c d rest _ ih => exact .char c ih

theorem Decodes.length_le (h : Decodes body v) : v.length ≤ body.length := by
  induction h with
  | nil => exact Nat.le_refl 0
  | char c _ ih => exact Nat.succ_le_succ ih
  | pair c d e _ _ _ ih => exact Nat.succ_le_succ (Nat.le_succ_of_le ih)

/-- What a text stands for does not go on, after a comma, with the end of the text that it stands in.
The induction moves what has been read to the end of `w`, which stays free of commas. -/
theorem Decodes.ne_own (h : Decodes body v) (hw : w ≠ []) (hcomma : ',' ∉ w) :
    w ++ body ≠ v ++ ',' :: more := by
  induction h generalizing w with
  | nil =>
      rw [List.append_nil]
      rintro rfl
      exact hcomma List.mem_cons_self
  | @char c body v _ ih =>
      obtain ⟨d, w, rfl⟩ := List.exists_cons_of_ne_nil hw
      intro heq
      obtain ⟨rfl, heq⟩ := List.cons.inj heq
      have heq : w ++ [d] ++ body = v ++ ',' :: more := by simpa using heq
      exact ih (by simp) (by simpa [and_comm] using hcomma) heq
  | @pair c d e body v hc hd _ ih =>
      obtain ⟨first, w, rfl⟩ := List.exists_cons_of_ne_nil hw
      intro heq
      obtain ⟨rfl, heq⟩ := List.cons.inj heq
      obtain ⟨hfirst, hw⟩ := List.ne_and_not_mem_of_not_mem_cons hcomma
      have hd : d ≠ ',' := fun heq => hfirst (hd heq).symm
      have heq : w ++ [c, d] ++ body = v ++ ',' :: more := by simpa using heq
      exact ih (by simp) (by simp [hw, hc.symm, hd.symm]) heq

/-- A text that starts as a literal is not what the literal stands for. -/
theorem Decodes.ne_bare (h : Decodes body name) (hquote : quote ≠ ',') (hblanks : ',' ∉ blanks)
    (hafter : ∀ d ∈ after.head?, d = ',') :
    name ++ after ≠ blanks ++ quote :: (body ++ quote :: more) := by
  intro heq
  have hsplit : name ++ after = (blanks ++ [quote] ++ body) ++ quote :: more := by simpa using heq
  have hlength := h.length_le
  rcases List.append_eq_append_iff.mp hsplit with ⟨others, hothers, hrest⟩ | ⟨others, hothers, -⟩
  · cases others with
    | nil =>
        rw [List.nil_append] at hrest
        exact hquote (hafter quote (by rw [hrest]; rfl))
    | cons d others =>
        obtain rfl : d = ',' := hafter d (by rw [hrest]; rfl)
        refine h.ne_own (w := blanks ++ [quote]) (by simp) ?_ hothers
        simp [hblanks, hquote.symm]
  · have hlong := congrArg List.length hothers
    simp only [List.length_append, List.length_cons, List.length_nil] at hlong
    omega

/-! ## The texts of literals -/

theorem stringLength?_split (h : stringLength? quote cs = some length) :
    ∃ body more, cs = body ++ quote :: more ∧ length = body.length + 1 := by
  fun_induction stringLength? quote cs generalizing length
  case case1 => cases h
  case case2 =>
    cases h
    exact ⟨[], [], rfl, rfl⟩
  case case3 => cases h
  case case4 d rest ih =>
    obtain ⟨n, hn, rfl⟩ := Option.map_eq_some_iff.mp h
    obtain ⟨body, more, rfl, rfl⟩ := ih hn
    exact ⟨'\\' :: d :: body, more, rfl, rfl⟩
  case case5 rest _ ih =>
    obtain ⟨n, hn, rfl⟩ := Option.map_eq_some_iff.mp h
    obtain ⟨body, more, rfl, rfl⟩ := ih hn
    exact ⟨quote :: quote :: body, more, rfl, rfl⟩
  case case6 d rest _ _ =>
    cases h
    exact ⟨[], d :: rest, rfl, rfl⟩
  case case7 c d rest _ _ ih =>
    obtain ⟨n, hn, rfl⟩ := Option.map_eq_some_iff.mp h
    obtain ⟨body, more, heq, rfl⟩ := ih hn
    exact ⟨c :: body, more, by rw [heq]; rfl, rfl⟩

theorem nameLength?_split (h : nameLength? cs = some length) :
    ∃ body more, cs = body ++ backtick :: more ∧ length = body.length + 1 := by
  fun_induction nameLength? cs generalizing length
  case case1 => cases h
  case case2 =>
    cases h
    exact ⟨[], [], rfl, rfl⟩
  case case3 => cases h
  case case4 rest ih =>
    obtain ⟨n, hn, rfl⟩ := Option.map_eq_some_iff.mp h
    obtain ⟨body, more, rfl, rfl⟩ := ih hn
    exact ⟨backtick :: backtick :: body, more, rfl, rfl⟩
  case case5 d rest _ =>
    cases h
    exact ⟨[], d :: rest, rfl, rfl⟩
  case case6 c d rest _ ih =>
    obtain ⟨n, hn, rfl⟩ := Option.map_eq_some_iff.mp h
    obtain ⟨body, more, heq, rfl⟩ := ih hn
    exact ⟨c :: body, more, by rw [heq]; rfl, rfl⟩

theorem take_enclosed (body more : List Char) (quote : Char) :
    (body ++ quote :: more).take (1 + (body.length + 1) - 1) = body ++ [quote] := by
  rw [Nat.add_sub_cancel_left, List.append_cons]
  exact List.take_left' (by simp)

theorem body_enclosed (first last : Char) (cs : List Char) :
    Quoted.body (first :: (cs ++ [last])) = cs := by
  rw [Quoted.body, List.drop_one, List.tail_cons, List.dropLast_concat]

end Quoted

namespace Parser

open Quoted (Decodes)

variable {name : String} {c c' : Cursor} {after : List Char}

/-- An alias is one lexeme. -/
theorem aliasName_eq_ok (h : aliasName c = .ok (name, c')) :
    ∃ l, c.ahead.lexemes = l :: c'.ahead.lexemes
      ∧ (l.kind = .identifier ∧ name = l.text
        ∨ l.kind = .quotedIdentifier ∧ name = Quoted.unquote l.text
        ∨ l.kind = .stringLiteral ∧ name = Quoted.unescape l.text) := by
  obtain ⟨rest, position, names⟩ := c
  cases rest with
  | nil => cases h
  | cons token rest =>
      refine ⟨token.lexeme, ?_⟩
      obtain ⟨kind, start, stop, text⟩ := token
      cases kind with
      | identifier =>
          cases h
          exact ⟨rfl, .inl ⟨rfl, rfl⟩⟩
      | quotedIdentifier =>
          cases h
          exact ⟨rfl, .inr (.inl ⟨rfl, rfl⟩)⟩
      | stringLiteral =>
          cases h
          exact ⟨rfl, .inr (.inr ⟨rfl, rfl⟩)⟩
      | _ => cases h

/-- A text that starts with an identifier as long as a name of its characters. -/
theorem plain_of_scans {blanks rest : List Char} {first : Char} {length : Nat}
    (heq : name.toList ++ after = blanks ++ first :: rest)
    (hblanks : ∀ b ∈ blanks, Token.isBlank b = true)
    (hscans : Token.Scans first rest .identifier length)
    (hname : name = String.ofList (first :: rest.take (length - 1))) :
    (Segment.isPlainName name = true ∧ isKeyword name = false) ∧ rest.drop (length - 1) = after := by
  obtain ⟨hfirst, rfl, hword⟩ := hscans.identifier
  rw [Nat.add_comm, List.take_succ_cons] at hword
  rw [Nat.add_sub_cancel_left] at hname ⊢
  have hchars : name.toList = first :: rest.takeWhile Segment.isNameChar := by
    rw [hname, String.toList_ofList, List.prefix_iff_eq_take.mp (List.takeWhile_prefix _)]
    rfl
  rw [hchars] at heq
  cases blanks with
  | cons b blanks =>
      have hblank := hblanks b List.mem_cons_self
      rw [← (List.cons.inj heq).1, Lexes.isBlank_of_isNameStart hfirst] at hblank
      cases hblank
  | nil =>
      have hplain : Segment.isPlainName name = true := by
        rw [Segment.isPlainName, hchars]
        simp [hfirst]
      have hrest : rest.takeWhile Segment.isNameChar ++ after = rest := (List.cons.inj heq).2
      refine ⟨⟨hplain, hname ▸ hword⟩, ?_⟩
      nth_rewrite 2 [← hrest]
      exact List.drop_left

theorem comma_not_mem_blanks {blanks : List Char} (h : ∀ b ∈ blanks, Token.isBlank b = true) :
    ',' ∉ blanks := fun hmem => nomatch h ',' hmem

/-- A name that is read from its own text is an identifier. -/
theorem plain_of_aliasName (hcut : Token.Cut (name.toList ++ after) c.ahead.lexemes)
    (hafter : ∀ d ∈ after.head?, d = ',') (h : aliasName c = .ok (name, c')) :
    (Segment.isPlainName name = true ∧ isKeyword name = false)
      ∧ Token.Cut after c'.ahead.lexemes := by
  obtain ⟨l, hl, hname⟩ := aliasName_eq_ok h
  rw [hl] at hcut
  obtain ⟨blanks, first, rest, length, heq, hblanks, hscans, htext, hrest⟩ := hcut.first
  have hcomma := comma_not_mem_blanks hblanks
  rcases hname with ⟨hkind, hname⟩ | ⟨hkind, hname⟩ | ⟨hkind, hname⟩
  · rw [hkind] at hscans
    obtain ⟨hplain, rfl⟩ := plain_of_scans heq hblanks hscans (hname.trans htext)
    exact ⟨hplain, hrest⟩
  · exfalso
    rw [hkind] at hscans
    obtain ⟨rfl, n, hn, rfl⟩ := hscans.quotedIdentifier
    obtain ⟨body, more, rfl, rfl⟩ := Quoted.nameLength?_split hn
    rw [htext, Quoted.take_enclosed, Quoted.unquote, String.toList_ofList, Quoted.body_enclosed] at hname
    rw [hname, String.toList_ofList] at heq
    exact (Quoted.decodes_name body).ne_bare (by decide) hcomma hafter heq
  · exfalso
    rw [hkind] at hscans
    obtain ⟨hquote, n, hn, rfl⟩ := hscans.stringLiteral
    obtain ⟨body, more, rfl, rfl⟩ := Quoted.stringLength?_split hn
    have hne : first ≠ ',' := by rcases hquote with rfl | rfl <;> decide
    rw [htext, Quoted.take_enclosed, Quoted.unescape, String.toList_ofList, Quoted.body_enclosed,
      List.headD_cons] at hname
    rw [hname, String.toList_ofList] at heq
    exact (Quoted.decodes_string hne body).ne_bare hne hcomma hafter heq

end Parser

end DocStore
