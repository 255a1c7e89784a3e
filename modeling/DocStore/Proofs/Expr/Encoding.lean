import DocStore.Proofs.Expr.Characters

/-!
# Texts as bytes

The bytes of a text are those of its characters, one after the other.  A character below 128 is a byte
of its own; all bytes of any other are at least 128, so that a byte below tells which character it is
(`Remains.test`).
-/

namespace DocStore

namespace Token

theorem byteLength_append (cs ds : List Char) :
    byteLength (cs ++ ds) = byteLength cs + byteLength ds := by
  have hfrom : ∀ (es : List Char) (n : Nat),
      es.foldl (fun n c => n + c.utf8Size) n = n + byteLength es := by
    intro es
    induction es with
    | nil => exact fun _ => rfl
    | cons e es ih =>
        intro n
        rw [byteLength, List.foldl_cons, List.foldl_cons, ih, ih (0 + e.utf8Size)]
        omega
  rw [byteLength, List.foldl_append, hfrom]
  rfl

theorem byteLength_singleton (c : Char) : byteLength [c] = c.utf8Size := Nat.zero_add _

theorem byteLength_cons (c : Char) (cs : List Char) :
    byteLength (c :: cs) = c.utf8Size + byteLength cs := by
  have happend := byteLength_append [c] cs
  rwa [byteLength_singleton] at happend

theorem byteLength_pos {cs : List Char} (h : cs ≠ []) : 0 < byteLength cs := by
  obtain ⟨c, rest, rfl⟩ := List.exists_cons_of_ne_nil h
  rw [byteLength_cons]
  have hsize := c.utf8Size_pos
  omega

end Token

namespace Lexer

open Token

variable {bytes : ByteArray} {pos : Nat} {p : Char → Bool} {c d : Char} {as bs cs rest : List Char}
  {b : UInt8} {more : List UInt8}

/-! ## Characters -/

/-- The test passes ASCII characters only. -/
def IsAscii (p : Char → Bool) : Prop := ∀ c, p c = true → c.toNat < 128

theorem utf8EncodeChar_of_lt (h : c.toNat < 128) :
    String.utf8EncodeChar c = [UInt8.ofNat c.toNat] := by
  have hle : c.val.toNat ≤ 127 := Nat.le_of_lt_succ h
  rw [String.utf8EncodeChar]
  exact if_pos hle

theorem utf8Size_of_lt (h : c.toNat < 128) : c.utf8Size = 1 := by
  rw [← String.length_utf8EncodeChar, utf8EncodeChar_of_lt h]
  rfl

theorem byteLength_singleton_of_lt (h : c.toNat < 128) : byteLength [c] = 1 :=
  (byteLength_singleton c).trans (utf8Size_of_lt h)

theorem ofUInt8_ofNat (h : c.toNat < 128) : Char.ofUInt8 (UInt8.ofNat c.toNat) = c := by
  apply Char.ext
  apply UInt32.toNat_inj.mp
  show (UInt8.ofNat c.toNat).toUInt32.toNat = c.toNat
  rw [UInt8.toNat_toUInt32, UInt8.toNat_ofNat_of_lt' (Nat.lt_trans h (by decide))]

/-- The first byte of a longer character does not continue one, and no byte of it is a character. -/
theorem exists_utf8EncodeChar (h : 128 ≤ c.toNat) :
    ∃ b more, String.utf8EncodeChar c = b :: more ∧ 192 ≤ b.toNat ∧ ∀ b ∈ more, 128 ≤ b.toNat := by
  have hnot : ¬c.val.toNat ≤ 127 := Nat.not_le.mpr h
  have hfirst : ∀ n, 192 ≤ n → n < 256 → 192 ≤ (UInt8.ofNat n).toNat := fun n hle hlt => by
    rwa [UInt8.toNat_ofNat_of_lt' hlt]
  have hmore : ∀ n, 128 ≤ (UInt8.ofNat (n % 64 + 128)).toNat := fun n => by
    have hlt : n % 64 + 128 < 256 := by omega
    rw [UInt8.toNat_ofNat_of_lt' hlt]
    omega
  rw [String.utf8EncodeChar, if_neg hnot]
  split
  · exact ⟨_, _, rfl, hfirst _ (by omega) (by omega), by simp only [List.forall_mem_singleton, hmore]⟩
  · split
    · refine ⟨_, _, rfl, hfirst _ (by omega) (by omega), ?_⟩
      exact List.forall_mem_cons.mpr ⟨hmore _, List.forall_mem_singleton.mpr (hmore _)⟩
    · refine ⟨_, _, rfl, hfirst _ (by omega) (by omega), ?_⟩
      exact List.forall_mem_cons.mpr
        ⟨hmore _, List.forall_mem_cons.mpr ⟨hmore _, List.forall_mem_singleton.mpr (hmore _)⟩⟩

theorem not_test_of_le (hp : IsAscii p) (hb : 128 ≤ b.toNat) : p (Char.ofUInt8 b) = false := by
  refine Bool.eq_false_iff.mpr fun h => Nat.not_lt.mpr ?_ (hp _ h)
  show 128 ≤ b.toUInt32.toNat
  rwa [UInt8.toNat_toUInt32]

/-! ## Texts -/

/-- The bytes of a run of characters. -/
def encoding (cs : List Char) : List UInt8 := cs.flatMap String.utf8EncodeChar

theorem encoding_cons (c : Char) (cs : List Char) :
    encoding (c :: cs) = String.utf8EncodeChar c ++ encoding cs := List.flatMap_cons

theorem encoding_append (as bs : List Char) : encoding (as ++ bs) = encoding as ++ encoding bs :=
  List.flatMap_append

theorem length_encoding (cs : List Char) : (encoding cs).length = byteLength cs := by
  induction cs with
  | nil => rfl
  | cons c cs ih =>
      rw [encoding_cons, List.length_append, String.length_utf8EncodeChar, ih, byteLength_cons]

theorem toByteArray_ofList (cs : List Char) :
    (String.ofList cs).toByteArray = (encoding cs).toByteArray := String.toByteArray_ofList

theorem toByteArray_eq (source : String) :
    source.toByteArray = (encoding source.toList).toByteArray := by
  rw [← toByteArray_ofList, String.ofList_toList]

theorem byteLength_toList (source : String) : byteLength source.toList = source.utf8ByteSize := by
  rw [← length_encoding, ← List.size_toByteArray, ← toByteArray_eq, String.size_toByteArray]

/-! ## Positions -/

/-- From the position on, the bytes are those of the characters. -/
structure Remains (bytes : ByteArray) (pos : Nat) (cs : List Char) : Prop where
  le : pos ≤ bytes.size
  drop : bytes.data.toList.drop pos = encoding cs

namespace Remains

theorem source (source : String) : Remains source.toByteArray 0 source.toList :=
  ⟨Nat.zero_le _, by rw [toByteArray_eq, List.toList_data_toByteArray, List.drop_zero]⟩

theorem size (h : Remains bytes pos cs) : bytes.size = pos + byteLength cs := by
  have hlength : bytes.data.toList.length = bytes.size := rfl
  have hdrop := congrArg List.length h.drop
  rw [List.length_drop, hlength, length_encoding] at hdrop
  have hle := h.le
  omega

theorem lt (h : Remains bytes pos (c :: cs)) : pos < bytes.size := by
  rw [h.size, byteLength_cons]
  have hsize := c.utf8Size_pos
  omega

theorem exists_cons (h : Remains bytes pos cs) (hlt : pos < bytes.size) :
    ∃ c rest, cs = c :: rest := by
  refine List.exists_cons_of_ne_nil ?_
  rintro rfl
  exact Nat.ne_of_gt hlt h.size

/-- Past a run of characters the others remain. -/
theorem append (h : Remains bytes pos (as ++ bs)) : Remains bytes (pos + byteLength as) bs := by
  refine ⟨?_, ?_⟩
  · rw [h.size, byteLength_append]
    omega
  · rw [← List.drop_drop, h.drop, encoding_append, ← length_encoding, List.drop_left]

theorem tail (h : Remains bytes pos (c :: cs)) : Remains bytes (pos + c.utf8Size) cs := by
  have happend := @append bytes pos [c] cs h
  rwa [byteLength_singleton] at happend

theorem next (hc : c.toNat < 128) (h : Remains bytes pos (c :: cs)) : Remains bytes (pos + 1) cs :=
  utf8Size_of_lt hc ▸ h.tail

theorem getElem? (h : Remains bytes pos cs) : bytes[pos]? = (encoding cs)[0]? := by
  rw [← h.drop, List.getElem?_drop, Nat.add_zero]
  by_cases hlt : pos < bytes.size
  · rw [getElem?_pos bytes pos hlt, List.getElem?_eq_getElem hlt, ByteArray.getElem_eq_getElem_data,
      Array.getElem_toList]
  · rw [getElem?_neg bytes pos hlt, List.getElem?_eq_none (Nat.not_lt.mp hlt)]

theorem getElem (h : Remains bytes pos cs) (hlt : pos < bytes.size) :
    (encoding cs)[0]? = some bytes[pos] := by
  rw [← h.getElem?, getElem?_pos bytes pos hlt]

/-- A test for ASCII characters need not know where characters start. -/
theorem test (hp : IsAscii p) (h : Remains bytes pos (c :: cs)) (hlt : pos < bytes.size) :
    p (Char.ofUInt8 bytes[pos]) = p c := by
  have hfirst := h.getElem hlt
  rw [encoding_cons] at hfirst
  by_cases hc : c.toNat < 128
  · rw [utf8EncodeChar_of_lt hc] at hfirst
    rw [← Option.some.inj hfirst, ofUInt8_ofNat hc]
  · obtain ⟨b, more, hbytes, hb, -⟩ := exists_utf8EncodeChar (Nat.not_lt.mp hc)
    rw [hbytes] at hfirst
    rw [← Option.some.inj hfirst, not_test_of_le hp (Nat.le_trans (by decide) hb)]
    exact (Bool.eq_false_iff.mpr fun h => hc (hp c h)).symm

/-- The byte where a character starts that is one of its own. -/
theorem ofUInt8 (hc : c.toNat < 128) (h : Remains bytes pos (c :: cs)) (hlt : pos < bytes.size) :
    Char.ofUInt8 bytes[pos] = c := by
  have hp : IsAscii (· = c) := fun d hd => of_decide_eq_true hd ▸ hc
  exact of_decide_eq_true ((h.test hp hlt).trans (decide_eq_true rfl))

/-- The same of the next byte, if there is one. -/
theorem any_peek? (hp : IsAscii p) (h : Remains bytes pos cs) :
    (peek? bytes pos).any p = cs.head?.any p := by
  cases cs with
  | nil =>
      rw [peek?, h.getElem?]
      rfl
  | cons c cs =>
      rw [peek?, getElem?_pos bytes pos h.lt]
      exact h.test hp h.lt

theorem peek?_eq_iff (hd : d.toNat < 128) (h : Remains bytes pos cs) :
    peek? bytes pos = some d ↔ cs.head? = some d := by
  have hp : IsAscii (· = d) := fun c hc => by simpa using (of_decide_eq_true hc) ▸ hd
  have hany : ∀ o : Option Char, o.any (· = d) = true ↔ o = some d := fun o => by
    cases o <;> simp
  rw [← hany, ← hany, h.any_peek? hp]

/-- The text of a run of characters can be read off its bytes. -/
theorem textOf? (h : Remains bytes pos (as ++ bs)) :
    textOf? bytes pos (pos + byteLength as) = some (String.ofList as) := by
  have hextract : bytes.extract pos (pos + byteLength as) = (String.ofList as).toByteArray := by
    rw [toByteArray_ofList]
    refine ByteArray.ext (Array.toList_inj.mp ?_)
    rw [ByteArray.data_extract, Array.toList_extract, List.extract_eq_take_drop, h.drop,
      encoding_append, Nat.add_sub_cancel_left, ← length_encoding, List.take_left,
      List.toList_data_toByteArray]
  rw [Lexer.textOf?, hextract, String.fromUTF8?, dif_pos (String.isValidUTF8 _)]
  rfl

/-- A text may be cut wherever a run of characters starts. -/
theorem isBoundary (h : Remains bytes pos cs) : isBoundary bytes pos = true := by
  rw [Lexer.isBoundary, h.getElem?]
  cases cs with
  | nil => simpa [encoding, byteLength] using h.size.symm
  | cons c cs =>
      obtain ⟨b, more, hbytes, hb⟩ : ∃ b more, String.utf8EncodeChar c = b :: more
          ∧ (b.toNat < 128 ∨ 192 ≤ b.toNat) := by
        by_cases hc : c.toNat < 128
        · refine ⟨_, _, utf8EncodeChar_of_lt hc, .inl ?_⟩
          rwa [UInt8.toNat_ofNat_of_lt' (Nat.lt_trans hc (by decide))]
        · obtain ⟨b, more, hbytes, hb, -⟩ := exists_utf8EncodeChar (Nat.not_lt.mp hc)
          exact ⟨b, more, hbytes, .inr hb⟩
      rw [encoding_cons, hbytes]
      show (pos == 0 || b < 0x80 || 0xC0 ≤ b) = true
      rw [Bool.or_eq_true, Bool.or_eq_true, decide_eq_true_iff, decide_eq_true_iff,
        UInt8.lt_iff_toNat_lt, UInt8.le_iff_toNat_le]
      exact hb.imp .inr id

end Remains

end Lexer

end DocStore
