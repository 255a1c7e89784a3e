import DocStore.Json.Printer
import DocStore.Proofs.Expr.Characters

/-!
# Quoting and reading back

A writer of quoted text stands every character between the quotes either as itself or behind a
backslash.  If the reader takes each of these back for the character (`Encodes`), then the literal
ends where the writer ends it (`stringLength?_flatMap`) and stands for the text that was written
(`unescape_flatMap`).  The literals of canonical text are of this kind: JSON strings, and the quoted
names of members.
-/

namespace DocStore.Quoted

variable {quote c : Char} {cs rest : List Char} {encode : Char → List Char}

/-- What stands for a character is read as the character: it is the character, if it has no meaning
of its own between quotes, or an escape that stands for it. -/
def Encodes (quote : Char) (encode : Char → List Char) (c : Char) : Prop :=
  (encode c = [c] ∧ c ≠ '\\' ∧ c ≠ quote) ∨ ∃ d, encode c = ['\\', d] ∧ escaped d = c

/-! ### Where a literal ends -/

theorem stringLength?_quote (h : rest.head? ≠ some quote) (hquote : quote ≠ '\\') :
    stringLength? quote (quote :: rest) = some 1 := by
  cases rest with
  | nil => simp [stringLength?]
  | cons d more =>
      have hd : d ≠ quote := fun heq => h (by rw [heq]; rfl)
      simp [stringLength?, hquote, hd]

theorem stringLength?_cons (hc : c ≠ '\\') (hquote : c ≠ quote) (hrest : rest ≠ []) :
    stringLength? quote (c :: rest) = (stringLength? quote rest).map (· + 1) := by
  cases rest with
  | nil => exact absurd rfl hrest
  | cons d more => simp [stringLength?, hc, hquote]

/-- A literal ends at the quote after the text, provided no other quote follows at once. -/
theorem stringLength?_flatMap (h : ∀ c ∈ cs, Encodes quote encode c) (hquote : quote ≠ '\\')
    (hrest : rest.head? ≠ some quote) :
    stringLength? quote (cs.flatMap encode ++ quote :: rest)
      = some ((cs.flatMap encode).length + 1) := by
  induction cs with
  | nil => exact stringLength?_quote hrest hquote
  | cons c more ih =>
      have hmore := ih fun x hx => h x (List.mem_cons_of_mem _ hx)
      rcases h c List.mem_cons_self with ⟨henc, hc, hne⟩ | ⟨d, henc, -⟩
      · rw [List.flatMap_cons, henc, List.singleton_append, List.cons_append,
          stringLength?_cons hc hne (by simp), hmore]
        rfl
      · rw [List.flatMap_cons, henc]
        simp [stringLength?, hmore]

/-! ### What a literal stands for -/

theorem decodeString_cons (hc : c ≠ '\\') (hquote : c ≠ quote) :
    decodeString quote (c :: rest) = c :: decodeString quote rest := by
  cases rest with
  | nil => rfl
  | cons d more => simp [decodeString, hc, hquote]

theorem decodeString_flatMap (h : ∀ c ∈ cs, Encodes quote encode c) :
    decodeString quote (cs.flatMap encode) = cs := by
  induction cs with
  | nil => rfl
  | cons c more ih =>
      have hmore := ih fun x hx => h x (List.mem_cons_of_mem _ hx)
      rcases h c List.mem_cons_self with ⟨henc, hc, hne⟩ | ⟨d, henc, hd⟩
      · rw [List.flatMap_cons, henc, List.singleton_append, decodeString_cons hc hne, hmore]
      · rw [List.flatMap_cons, henc]
        simp [decodeString, hmore, hd]

theorem unescape_flatMap (h : ∀ c ∈ cs, Encodes quote encode c) :
    unescape (String.ofList (quote :: (cs.flatMap encode ++ [quote]))) = String.ofList cs := by
  rw [unescape, String.toList_ofList, List.headD_cons, body, List.drop_one, List.tail_cons,
    List.dropLast_concat, decodeString_flatMap h]

/-! ### JSON strings -/

/-- The control characters of a text, if any, are those that a backslash and a letter stand for in
both notations. -/
def HasPlainEscapes (text : String) : Prop :=
  ∀ c ∈ text.toList, c.toNat < 0x20 → c = Char.ofNat 8 ∨ c = '\t' ∨ c = '\n' ∨ c = '\r'

theorem encodes_escapeChar
    (h : c.toNat < 0x20 → c = Char.ofNat 8 ∨ c = '\t' ∨ c = '\n' ∨ c = '\r') :
    Encodes '"' Json.escapeChar c := by
  by_cases hlow : c.toNat < 0x20
  · rcases h hlow with rfl | rfl | rfl | rfl
    · exact .inr ⟨'b', rfl, rfl⟩
    · exact .inr ⟨'t', rfl, rfl⟩
    · exact .inr ⟨'n', rfl, rfl⟩
    · exact .inr ⟨'r', rfl, rfl⟩
  · by_cases hquote : c = '"'
    · exact .inr ⟨'"', by rw [hquote]; rfl, hquote.symm⟩
    · by_cases hback : c = '\\'
      · exact .inr ⟨'\\', by rw [hback]; rfl, hback.symm⟩
      · refine .inl ⟨?_, hback, hquote⟩
        -- The other escapes are of control characters.
        have hne : ∀ d : Char, d.toNat < 0x20 → c ≠ d := by
          rintro d hd rfl
          exact hlow hd
        simp [Json.escapeChar, hquote, hback, hlow, hne '\n' (by decide), hne '\t' (by decide),
          hne '\r' (by decide), hne (Char.ofNat 8) (by decide), hne (Char.ofNat 12) (by decide)]

/-! ### Quoted members -/

/-- A quote as it stands in the quoted name of a member, behind a backslash. -/
def escapeQuote (c : Char) : List Char := if c = '"' then ['\\', '"'] else [c]

theorem quoteName_eq (name : String) :
    Segment.quoteName name
      = String.ofList ('"' :: (name.toList.flatMap escapeQuote ++ ['"'])) := rfl

theorem encodes_escapeQuote (h : c ≠ '\\') : Encodes '"' escapeQuote c := by
  rw [Encodes, escapeQuote]
  split
  · next hquote => exact .inr ⟨'"', rfl, hquote.symm⟩
  · next hquote => exact .inl ⟨rfl, h, hquote⟩

/-! ### Names between backticks -/

/-- A backtick as it stands between backticks, doubled. -/
def doubleBacktick (c : Char) : List Char := if c = backtick then [backtick, backtick] else [c]

/-- Any name between backticks. -/
def quoteIdentifier (name : String) : String :=
  String.ofList (backtick :: (name.toList.flatMap doubleBacktick ++ [backtick]))

theorem nameLength?_cons (hc : c ≠ backtick) (hrest : rest ≠ []) :
    nameLength? (c :: rest) = (nameLength? rest).map (· + 1) := by
  cases rest with
  | nil => exact absurd rfl hrest
  | cons d more => simp [nameLength?, hc]

theorem nameLength?_flatMap (hrest : rest.head? ≠ some backtick) :
    nameLength? (cs.flatMap doubleBacktick ++ backtick :: rest)
      = some ((cs.flatMap doubleBacktick).length + 1) := by
  induction cs with
  | nil =>
      cases rest with
      | nil => rfl
      | cons d more =>
          have hd : d ≠ backtick := fun heq => hrest (by rw [heq]; rfl)
          simp [nameLength?, hd]
  | cons c more ih =>
      rw [List.flatMap_cons, doubleBacktick]
      split
      · next hc => simp [nameLength?, ih]
      · next hc =>
          rw [List.singleton_append, List.cons_append, nameLength?_cons hc (by simp), ih]
          rfl

end DocStore.Quoted
