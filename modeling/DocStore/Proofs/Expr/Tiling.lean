import DocStore.Proofs.Expr.Pointing

/-!
# Tokens cover their source

Main statement: `Token.lex_covers`.  Every source is cut into tokens that stand one behind another,
between the boundaries of characters and with nothing but blanks around them (`CutInto`), or the lexer
stops with an error at the first byte of a character.  It is about the lexer over bytes, which keeps 32
bits of every offset.

`Tiles` is how a lexer goes through a text: it passes a blank, or it takes the text of a token.  What
is said of offsets and of bytes comes from there by induction.
-/

namespace DocStore.Token

variable {source : String} {as bs cs ds before after rest : List Char} {c : Char} {token : Token}
  {tokens : List Token} {offset length i : Nat} {b : UInt8} {last : Option Token} {kind : TokenKind}
  {afterStep : Bool} {error : ParseError}

/-! ## Bytes -/

theorem getElem?_toByteArray (source : String) (i : Nat) :
    source.toByteArray[i]? = (Lexer.encoding source.toList)[i]? := by
  rw [Lexer.toByteArray_eq]
  by_cases h : i < (Lexer.encoding source.toList).length
  · rw [getElem?_pos _ i (by rwa [List.size_toByteArray]), List.getElem?_eq_getElem h,
      ByteArray.getElem_eq_getElem_data]
    simp
  · rw [getElem?_neg _ i (by rwa [List.size_toByteArray]), List.getElem?_eq_none (Nat.not_lt.mp h)]

/-- A text has one place only after so many bytes. -/
theorem eq_of_byteLength_eq (h : as ++ bs = cs ++ ds) (hlength : byteLength as = byteLength cs) :
    as = cs ∧ bs = ds := by
  obtain ⟨es, rfl, hes⟩ | ⟨es, rfl, hes⟩ := List.append_eq_append_iff.mp h
  all_goals
    rw [byteLength_append] at hlength
    have hnil : es = [] := by
      by_contra hne
      have hpos := byteLength_pos hne
      omega
    subst hnil
    simp [hes]

/-- Between two characters there is a boundary. -/
theorem isValid_of_split (h : source.toList = before ++ after) :
    String.Pos.Raw.IsValid source ⟨byteLength before⟩ := by
  refine String.Pos.Raw.isValid_iff_exists_append.mpr
    ⟨String.ofList before, String.ofList after, ?_, ?_⟩
  · rw [← String.ofList_append, ← h, String.ofList_toList]
  · rw [← String.toList_ofList (l := before), Lexer.byteLength_toList, String.toList_ofList]
    rfl

/-! ## Blanks -/

/-- A space, a tab, a carriage return and a line feed. -/
def blankBytes : List UInt8 := [0x20, 0x09, 0x0D, 0x0A]

theorem encode_blank (h : isBlank c = true) : ∃ b ∈ blankBytes, String.utf8EncodeChar c = [b] := by
  have hcases : ((c = ' ' ∨ c = '\t') ∨ c = '\r') ∨ c = '\n' := by simpa [isBlank] using h
  rcases hcases with ((rfl | rfl) | rfl) | rfl
  · exact ⟨0x20, by decide, rfl⟩
  · exact ⟨0x09, by decide, rfl⟩
  · exact ⟨0x0D, by decide, rfl⟩
  · exact ⟨0x0A, by decide, rfl⟩

/-! ## Tiled texts -/

/-- A plain name, be it a keyword or not. -/
def isName (token : Token) : Bool := token.kind == .identifier || token.kind == .keyword

/-- The text, from a byte offset on, is made of the texts of the tokens and of blanks.  A name is as long
as it can be. -/
inductive Tiles : Nat → List Char → List Token → Prop
  | done (offset : Nat) : Tiles offset [] []
  | blank {offset : Nat} {c : Char} {rest : List Char} {tokens : List Token} :
      isBlank c = true → Tiles (offset + c.utf8Size) rest tokens → Tiles offset (c :: rest) tokens
  | token {token : Token} {rest : List Char} {tokens : List Token} :
      token.text.toList ≠ [] → token.stop = token.start + byteLength token.text.toList →
      (token.isName = true →
        (∀ c ∈ token.text.toList, Segment.isNameChar c = true) ∧ endsWord rest = true) →
      Tiles token.stop rest tokens → Tiles token.start (token.text.toList ++ rest) (token :: tokens)

theorem take_nameRun (cs : List Char) : cs.take (nameRun cs) = cs.takeWhile Segment.isNameChar :=
  (List.prefix_iff_eq_take.mp (List.takeWhile_prefix _)).symm

theorem drop_nameRun (cs : List Char) : cs.drop (nameRun cs) = cs.dropWhile Segment.isNameChar := by
  have hsplit : cs.take (nameRun cs) ++ cs.drop (nameRun cs)
      = cs.takeWhile Segment.isNameChar ++ cs.dropWhile Segment.isNameChar := by
    rw [List.take_append_drop, List.takeWhile_append_dropWhile]
  rw [take_nameRun] at hsplit
  exact List.append_cancel_left hsplit

theorem endsWord_dropWhile (cs : List Char) :
    endsWord (cs.dropWhile Segment.isNameChar) = true := by
  have hhead := List.head?_dropWhile_not Segment.isNameChar cs
  rw [endsWord]
  cases hnext : (cs.dropWhile Segment.isNameChar).head? with
  | none => rfl
  | some d =>
      rw [hnext] at hhead
      simpa using hhead

/-- Whatever token the lexer takes for a name is one, and it is over. -/
theorem name_of_scans (h : Scans c rest kind length) (hkind : kind = .identifier ∨ kind = .keyword) :
    (∀ d ∈ c :: rest.take (length - 1), Segment.isNameChar d = true)
      ∧ endsWord (rest.drop (length - 1)) = true := by
  cases h with
  | word hname =>
      rw [Nat.add_sub_cancel_left, take_nameRun, drop_nameRun]
      refine ⟨List.forall_mem_cons.mpr ⟨Lexer.isNameChar_of_isNameStart hname, fun d hd => ?_⟩,
        endsWord_dropWhile rest⟩
      exact List.mem_takeWhile_imp hd
  | number _ _ h => rcases h with rfl | rfl <;> simp at hkind
  | string => simp at hkind
  | name => simp at hkind
  | operator _ _ h =>
      have hother := operator?_kind h
      rcases hkind with rfl | rfl <;> simp at hother

theorem tiles_of_lexFrom (h : lexFrom offset last cs = .ok tokens) :
    ∃ real, tokens = real ++ [⟨.eof, offset + byteLength cs, offset + byteLength cs, ""⟩]
      ∧ Tiles offset cs real := by
  fun_induction lexFrom offset last cs generalizing tokens
  case case1 offset last =>
    cases h
    exact ⟨[], rfl, .done offset⟩
  case case2 offset last c rest hblank ih =>
    obtain ⟨real, rfl, htiles⟩ := ih h
    exact ⟨real, by rw [byteLength_cons, Nat.add_assoc], .blank hblank htiles⟩
  case case3 => cases h
  case case4 => cases h
  case case5 offset last c rest hblank kind length hscan lexeme stop token later hlater ih =>
    cases h
    obtain ⟨real, rfl, htiles⟩ := ih hlater
    have htext : token.text.toList = lexeme := String.toList_ofList
    have hsplit : c :: rest = token.text.toList ++ rest.drop (length - 1) := by
      rw [htext, List.cons_append, List.take_append_drop]
    have hend : stop + byteLength (rest.drop (length - 1)) = offset + byteLength (c :: rest) := by
      rw [hsplit, byteLength_append, htext, ← Nat.add_assoc]
    have htiled : Tiles offset (c :: rest) (token :: real) := by
      rw [hsplit]
      refine @Tiles.token token _ _ ?_ ?_ (fun hname => ?_) htiles
      · rw [htext]
        exact List.cons_ne_nil _ _
      · rw [htext]
      · rw [htext]
        have hkind : kind = .identifier ∨ kind = .keyword := by simpa [isName] using hname
        exact name_of_scans (scans_of_scan hscan) hkind
    exact ⟨token :: real, by rw [hend]; rfl, htiled⟩

namespace Tiles

/-- Every token is within the text, and it has a byte at least. -/
theorem within (h : Tiles offset cs tokens) :
    ∀ token ∈ tokens, offset ≤ token.start ∧ token.start < token.stop
      ∧ token.stop ≤ offset + byteLength cs := by
  induction h with
  | done offset => exact List.forall_mem_nil _
  | @blank offset c rest tokens hc _ ih =>
      intro token htoken
      obtain ⟨hstart, hspan, hstop⟩ := ih token htoken
      rw [byteLength_cons]
      omega
  | @token first rest tokens hne hstop hname _ ih =>
      have hpos := byteLength_pos hne
      rw [byteLength_append]
      refine List.forall_mem_cons.mpr ⟨by omega, fun token htoken => ?_⟩
      obtain ⟨hstart, hspan, hend⟩ := ih token htoken
      omega

/-- Each token is over before the next one starts. -/
theorem pairwise (h : Tiles offset cs tokens) : tokens.Pairwise fun a b => a.stop ≤ b.start := by
  induction h with
  | done offset => exact .nil
  | blank _ _ ih => exact ih
  | token _ _ _ hrest ih => exact .cons (fun token htoken => (hrest.within token htoken).1) ih

/-- A byte of no token is a blank. -/
theorem mem_blankBytes (h : Tiles offset cs tokens) (hbyte : (Lexer.encoding cs)[i]? = some b)
    (hgap : ∀ token ∈ tokens, offset + i < token.start ∨ token.stop ≤ offset + i) :
    b ∈ blankBytes := by
  induction h generalizing i with
  | done offset => cases hbyte
  | @blank offset c rest tokens hc _ ih =>
      obtain ⟨blank, hblank, hencode⟩ := encode_blank hc
      have hsize : c.utf8Size = 1 := by rw [← String.length_utf8EncodeChar, hencode]; rfl
      rw [Lexer.encoding_cons, hencode] at hbyte
      cases i with
      | zero =>
          cases hbyte
          exact hblank
      | succ i =>
          refine ih hbyte fun token htoken => ?_
          have := hgap token htoken
          omega
  | @token first rest tokens _ hstop _ _ ih =>
      obtain ⟨hfirst, hothers⟩ := List.forall_mem_cons.mp hgap
      -- Not in the token, so behind it.
      have hle : byteLength first.text.toList ≤ i := by omega
      rw [Lexer.encoding_append, List.getElem?_append_right (by rwa [Lexer.length_encoding]),
        Lexer.length_encoding] at hbyte
      refine ih hbyte fun token htoken => ?_
      have := hothers token htoken
      omega

/-- A name is followed by nothing that could be a part of it. -/
theorem name (h : Tiles offset cs tokens) :
    ∀ token ∈ tokens, token.isName = true →
      (∀ c ∈ token.text.toList, Segment.isNameChar c = true)
        ∧ ∃ before after, cs = before ++ after ∧ offset + byteLength before = token.stop
          ∧ endsWord after = true := by
  induction h with
  | done offset => exact List.forall_mem_nil _
  | @blank offset c rest tokens hc _ ih =>
      intro token htoken hname
      obtain ⟨hplain, before, after, rfl, hstop, hends⟩ := ih token htoken hname
      refine ⟨hplain, c :: before, after, rfl, ?_, hends⟩
      rw [byteLength_cons, ← Nat.add_assoc, hstop]
  | @token first rest tokens _ hstop hfirst _ ih =>
      refine List.forall_mem_cons.mpr ⟨fun hname => ?_, fun token htoken hname => ?_⟩
      · obtain ⟨hplain, hends⟩ := hfirst hname
        exact ⟨hplain, _, rest, rfl, hstop.symm, hends⟩
      · obtain ⟨hplain, before, after, rfl, hend, hends⟩ := ih token htoken hname
        refine ⟨hplain, first.text.toList ++ before, after, by rw [List.append_assoc], ?_, hends⟩
        rw [byteLength_append, ← Nat.add_assoc, ← hstop, hend]

end Tiles

/-! ## Errors -/

theorem position_of_scan {bytes : ByteArray} {pos : Nat} {h : pos < bytes.size}
    (hscan : Lexer.scan bytes pos h afterStep = .error error) : error.position = some pos := by
  revert hscan
  fun_cases Lexer.scan bytes pos h afterStep
  all_goals
    intro hscan
    cases hscan
  all_goals rfl

/-- Whatever of the offsets the tokens keep, the lexer goes from character to character, and it stops at
one. -/
theorem position_of_lexFrom {bytes : ByteArray} {pos : Nat} {width : Lexer.OffsetWidth}
    {hle : pos ≤ bytes.size} (hcs : Lexer.Remains bytes pos cs)
    (h : Lexer.lexFrom width bytes pos hle last = .error error) :
    ∃ before c after, cs = before ++ c :: after
      ∧ error.position = some (pos + byteLength before) := by
  fun_induction Lexer.lexFrom width bytes pos hle last generalizing cs
  case case1 pos last hle hlt hblank ih =>
    obtain ⟨c, rest, rfl⟩ := hcs.exists_cons hlt
    have hascii := Lexer.isAscii_isBlank c ((Lexer.isBlank_eq hcs hlt).symm.trans hblank)
    obtain ⟨before, d, after, rfl, hposition⟩ := ih (hcs.next hascii) h
    refine ⟨c :: before, d, after, rfl, ?_⟩
    rw [byteLength_cons, Lexer.utf8Size_of_lt hascii, ← Nat.add_assoc, hposition]
  case case2 pos last hle hlt hblank e hscan =>
    cases h
    obtain ⟨c, rest, rfl⟩ := hcs.exists_cons hlt
    exact ⟨[], c, rest, rfl, position_of_scan hscan⟩
  case case3 pos last hle hlt hblank kind stop hscan hstop token e hlater ih =>
    cases h
    obtain ⟨as, bs, rfl, rfl⟩ := Lexer.exists_of_scan hcs hscan
    obtain ⟨before, d, after, rfl, hposition⟩ := ih hcs.append hlater
    refine ⟨as ++ before, d, after, by rw [List.append_assoc], ?_⟩
    rw [byteLength_append, ← Nat.add_assoc, hposition]
  case case4 => cases h
  case case5 => cases h

/-! ## Sources -/

/-- The character starts at this byte of the source. -/
def StandsAt (source : String) (offset : Nat) (c : Char) : Prop :=
  ∃ before after, source.toList = before ++ c :: after ∧ byteLength before = offset

/-- The source is made of these tokens, and of blanks before, between and behind them.  The text of each
token can be cut out of the source. -/
structure CutInto (source : String) (real : List Token) : Prop where
  kind : ∀ token ∈ real, token.kind ≠ .eof
  span : ∀ token ∈ real, token.start < token.stop ∧ token.stop ≤ source.utf8ByteSize
  boundary : ∀ token ∈ real, String.Pos.Raw.IsValid source ⟨token.start⟩
    ∧ String.Pos.Raw.IsValid source ⟨token.stop⟩
  text : ∀ token ∈ real,
    Lexer.slice? source.toByteArray token.start token.stop = some token.text
      ∧ token.Covers source.toList
  ordered : real.Pairwise fun a b => a.start < b.start ∧ a.stop ≤ b.start
  blank : ∀ i b, source.toByteArray[i]? = some b →
    (∀ token ∈ real, i < token.start ∨ token.stop ≤ i) → b ∈ blankBytes
  name : ∀ token ∈ real, token.isName = true →
    (∀ c ∈ token.text.toList, Segment.isNameChar c = true)
      ∧ ∀ c, StandsAt source token.stop c → Segment.isNameChar c = false

theorem Covers.isValid (h : token.Covers source.toList) :
    String.Pos.Raw.IsValid source ⟨token.start⟩ ∧ String.Pos.Raw.IsValid source ⟨token.stop⟩ := by
  obtain ⟨before, after, hsource, hstart, hstop⟩ := h
  rw [← hstart, ← hstop]
  exact ⟨isValid_of_split (hsource.trans (List.append_assoc ..)), isValid_of_split hsource⟩

theorem not_isNameChar_of_standsAt (hsplit : source.toList = before ++ after)
    (hends : endsWord after = true) (h : StandsAt source (byteLength before) c) :
    Segment.isNameChar c = false := by
  obtain ⟨before', after', hsource, hlength⟩ := h
  obtain ⟨-, rfl⟩ := eq_of_byteLength_eq (hsource.symm.trans hsplit) hlength
  simpa [endsWord] using hends

theorem Covers.slice? (h : token.Covers source.toList) :
    Lexer.slice? source.toByteArray token.start token.stop = some token.text := by
  obtain ⟨before, after, hsource, hstart, hstop⟩ := h
  have hremains := Lexer.Remains.source source
  rw [hsource, List.append_assoc] at hremains
  have hslice := Lexer.slice?_eq hremains.append
  rw [Nat.zero_add, hstart] at hslice
  rw [← hstop, byteLength_append, hstart, hslice, String.ofList_toList]

theorem cutInto_of_tiles {real : List Token} (htiles : Tiles 0 source.toList real)
    (hreal : ∀ token ∈ real, token.kind ≠ .eof ∧ token.Covers source.toList) :
    CutInto source real := by
  have hwithin := htiles.within
  rw [Lexer.byteLength_toList, Nat.zero_add] at hwithin
  refine ⟨fun token h => (hreal token h).1, fun token h => (hwithin token h).2,
    fun token h => (hreal token h).2.isValid,
    fun token h => ⟨(hreal token h).2.slice?, (hreal token h).2⟩, ?_,
    fun i b hbyte hgap => ?_, fun token h hname => ?_⟩
  · refine htiles.pairwise.imp_of_mem fun ha hb hab => ⟨?_, hab⟩
    have := (hwithin _ ha).2.1
    omega
  · rw [getElem?_toByteArray] at hbyte
    exact htiles.mem_blankBytes hbyte (by simpa using hgap)
  · obtain ⟨hplain, before, after, hsplit, hstop, hends⟩ := htiles.name token h hname
    rw [Nat.zero_add] at hstop
    exact ⟨hplain, fun c hc => not_isNameChar_of_standsAt hsplit hends (hstop ▸ hc)⟩

/-- The lexer, with 32 bits for every offset, comes to an end on every source.  On one that 32 bits can
measure it does what the lexer does that keeps whole offsets, and if it succeeds, it has cut the source
into tokens, the last of which stands for the end of the source and no other one does.  If it fails, then
with an error at a byte where a character starts. -/
theorem lex_covers (source : String) :
    (source.utf8ByteSize < UInt32.size → Lexer.lex .bits32 source = lex source
        ∧ ∀ tokens, Lexer.lex .bits32 source = .ok tokens →
          ∃ real, tokens = real ++ [⟨.eof, source.utf8ByteSize, source.utf8ByteSize, ""⟩]
            ∧ CutInto source real)
      ∧ ((∃ tokens, Lexer.lex .bits32 source = .ok tokens)
        ∨ ∃ error offset c, Lexer.lex .bits32 source = .error error
          ∧ error.position = some offset ∧ StandsAt source offset c) := by
  constructor
  · refine fun hsize => ⟨Lexer.lex_bits32 hsize, fun tokens hlex => ?_⟩
    rw [Lexer.lex_bits32 hsize] at hlex
    obtain ⟨found, eof, hfound, -, hreal⟩ := exists_of_lex hlex
    rw [lex_eq] at hlex
    obtain ⟨real, rfl, htiles⟩ := tiles_of_lexFrom hlex
    obtain rfl := List.append_inj_left' hfound rfl
    rw [Lexer.byteLength_toList, Nat.zero_add]
    exact ⟨_, rfl, cutInto_of_tiles htiles hreal⟩
  · cases hlex : Lexer.lex .bits32 source with
    | ok tokens => exact .inl ⟨tokens, rfl⟩
    | error error =>
        obtain ⟨before, c, after, hsource, hposition⟩ :=
          position_of_lexFrom (Lexer.Remains.source source) hlex
        rw [Nat.zero_add] at hposition
        exact .inr ⟨error, _, c, rfl, hposition, before, after, hsource, rfl⟩

/-- A backslash before a character of two bytes hides the first one only. -/
theorem lex_covers_escaped :
    "'\\é' x".utf8ByteSize < UInt32.size
      ∧ ∃ real, Lexer.lex .bits32 "'\\é' x" = .ok (real ++ [⟨.eof, 7, 7, ""⟩])
        ∧ real.length = 2 ∧ CutInto "'\\é' x" real := by
  have hsize : "'\\é' x".utf8ByteSize = 7 := by decide
  have hlt : "'\\é' x".utf8ByteSize < UInt32.size := hsize ▸ by decide
  obtain ⟨tokens, hlex, hlength⟩ := Outcome.exists_eq_ok (Lexer.lex .bits32 "'\\é' x")
    (fun tokens => tokens.length == 3) (by decide +kernel)
  obtain ⟨real, rfl, hcut⟩ := ((lex_covers _).1 hlt).2 tokens hlex
  exact ⟨hlt, real, hlex, by simpa using hlength, hcut⟩

/-- Offsets count bytes, of which one of these characters has two. -/
example : Lexer.lex .bits32 "'é' x" = .ok [⟨.stringLiteral, 0, 4, "'é'"⟩, ⟨.identifier, 5, 6, "x"⟩,
    ⟨.eof, 6, 6, ""⟩] := by decide +kernel

end DocStore.Token
