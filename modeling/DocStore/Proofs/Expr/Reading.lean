import DocStore.Proofs.Decimal
import DocStore.Proofs.Expr.Canonical
import DocStore.Proofs.Expr.Numbering
import DocStore.Proofs.Expr.Parsing

/-!
# Reading words, placeholders and paths

The parsers of what is not made of expressions, each run on the lexemes of canonical text: the
keyword, the placeholder, the steps of a path, the path.
-/

namespace DocStore

/-- Whether a token starts a step of a path. -/
def TokenKind.startsStep : TokenKind → Bool
  | .dot | .dotStar | .doubleStar | .leftBracket => true
  | _ => false

/-- No step of a path is ahead. -/
def Ahead.EndsPath (s : Ahead) : Prop := (s.kindAt 0).startsStep = false

namespace Lexeme

theorem kind_word (w : String) : (word w).kind = .keyword ∨ (word w).kind = .identifier := by
  rw [word]
  split
  · exact .inl rfl
  · exact .inr rfl

theorem word_of_not_keyword {w : String} (h : isKeyword w = false) : word w = ⟨.identifier, w⟩ := by
  rw [word, h]
  rfl

theorem text_placeholder (name : String) : (placeholder name).text = name := by
  rw [placeholder]
  split <;> rfl

theorem kind_placeholder (name : String) :
    (placeholder name).kind = .integer ∨ (placeholder name).kind = .keyword
      ∨ (placeholder name).kind = .identifier := by
  rw [placeholder]
  split
  · exact .inl rfl
  · exact .inr (kind_word name)

end Lexeme

/-! ## Words -/

theorem toLower_eq {w low : String} (h : w.toList.map Char.toLower = low.toList) :
    w.toLower = low := by
  show w.map Char.toLower = low
  rw [← String.toList_inj, String.toList_map, h]

theorem toLower_eq_self {w : String} (h : ∀ c ∈ w.toList, c.isUpper = false) : w.toLower = w := by
  have hmap : w.toList.map Char.toLower = w.toList.map id :=
    List.map_congr_left fun c hc => dif_neg (of_decide_eq_false (h c hc))
  exact toLower_eq (hmap.trans (List.map_id _))

/-- A word without capitals is a keyword only as it stands. -/
theorem isKeyword_eq_false {w : String} (h : ∀ c ∈ w.toList, c.isUpper = false)
    (hw : keywords.contains w = false) : isKeyword w = false := by
  rw [isKeyword, toLower_eq_self h, hw]

/-- The word is the keyword that the grammar has as `low`. -/
structure Keyword (w low : String) : Prop where
  lower : w.toLower = low
  known : low ∈ keywords

namespace Keyword

variable {w low : String} {l : Lexeme} {ls : List Lexeme} {names : List String}

/-- Words are compared letter by letter, in any case. -/
theorem of_letters (h : w.toList.map Char.toLower = low.toList) (hlow : low ∈ keywords) :
    Keyword w low :=
  ⟨toLower_eq h, hlow⟩

theorem kind (h : Keyword w low) : (Lexeme.word w).kind = .keyword := by
  rw [Lexeme.word, isKeyword, h.lower, if_pos (List.contains_iff_mem.mpr h.known)]

theorem isWord (h : Keyword w low) (word : String) :
    (Lexeme.word w).token.isWord word = (low == word) := by
  show ((Lexeme.word w).kind == .keyword && w.toLower == word) = _
  rw [h.kind, h.lower]
  rfl

theorem isWord_self (h : Keyword w low) : (Lexeme.word w).token.isWord low = true := by
  rw [h.isWord]
  exact beq_self_eq_true low

theorem isWord_of_ne (h : Keyword w low) {word : String} (hne : low ≠ word) :
    (Lexeme.word w).token.isWord word = false := by
  rw [h.isWord]
  exact beq_eq_false_iff_ne.mpr hne

/-- No step of a path starts with a keyword. -/
theorem endsPath (h : Keyword w low) : Ahead.EndsPath ⟨.word w :: ls, names⟩ := by
  show (Lexeme.word w).kind.startsStep = false
  rw [h.kind]
  rfl

end Keyword

namespace Parses

open DocStore.Parser

variable {s s' : Ahead} {l : Lexeme} {ls : List Lexeme} {names : List String} {name : String}

/-! ## Placeholders -/

/-- A name has the place that it has once it has been met. -/
theorem placeOf (name : String) :
    Parses (Parser.placeOf name) ⟨ls, names⟩ (UInt32.ofNat ((meet names name).idxOf name))
      ⟨ls, meet names name⟩ := by
  rw [Parser.placeOf]
  refine get_bind fun c hc => ?_
  have hnames : c.names = names := congrArg Ahead.names hc
  have hlexemes : c.rest.map Token.lexeme = ls := congrArg Ahead.lexemes hc
  have hidx := List.idxOf_eq_getD_idxOf? name names
  rw [hnames]
  cases hplace : names.idxOf? name with
  | some i =>
      have hmem : name ∈ names := by
        by_contra hnot
        rw [List.idxOf?_eq_none_iff.mpr hnot] at hplace
        cases hplace
      rw [hplace, Option.getD_some] at hidx
      rw [meet_of_mem hmem, hidx]
      exact pure _
  | none =>
      -- A new name goes to the end, and its place is the number of names before it.
      have hnot : name ∉ names := List.idxOf?_eq_none_iff.mp hplace
      have hlast : (names ++ [name]).idxOf name = names.length := by
        rw [List.idxOf_append_of_notMem hnot]
        simp
      rw [meet_of_not_mem hnot, hlast]
      intro c' _
      exact ⟨{ c with names := names ++ [name] }, rfl, by rw [Cursor.ahead, hlexemes]⟩

/-- Names of placeholders are the same in any case; these are in lower case already. -/
theorem toLower_placeholderName (hname : PlaceholderName name) : name.toLower = name := by
  refine toLower_eq_self fun c hc => ?_
  rcases hname with ⟨-, hlow⟩ | ⟨-, hdigits⟩
  · exact hlow c hc
  · exact Lexes.isUpper_of_isDigit (hdigits c hc)

theorem placeholder (hname : PlaceholderName name) :
    Parses Parser.placeholder ⟨Lexeme.placeholder name :: ls, names⟩
      (.placeholder name (UInt32.ofNat ((meet names name).idxOf name))) ⟨ls, meet names name⟩ := by
  rw [Parser.placeholder]
  refine peek?_bind fun token hkind htext => ?_
  rw [Lexeme.text_placeholder] at htext
  have hrest : Parses (Parser.advance >>= fun _ => Parser.placeOf name >>= fun place =>
      Pure.pure (Expr.placeholder name place)) ⟨Lexeme.placeholder name :: ls, names⟩
      (.placeholder name (UInt32.ofNat ((meet names name).idxOf name))) ⟨ls, meet names name⟩ :=
    advance.bind ((placeOf name).bind (pure _))
  rcases Lexeme.kind_placeholder name with h | h | h
    <;> simpa only [hkind, h, htext, toLower_placeholderName hname] using hrest

/-! ## Steps of paths -/

theorem unescape_quoteName (h : '\\' ∉ name.toList) :
    Quoted.unescape (Segment.quoteName name) = name := by
  rw [Quoted.quoteName_eq, Quoted.unescape_flatMap, String.ofList_toList]
  exact fun c hc => Quoted.encodes_escapeQuote fun hback => h (hback ▸ hc)

theorem memberStep (h : '\\' ∉ name.toList) :
    Parses Parser.memberStep
      ⟨(if Segment.isPlainName name then .word name else ⟨.stringLiteral, Segment.quoteName name⟩)
        :: ls, names⟩ (.member name) ⟨ls, names⟩ := by
  rw [Parser.memberStep]
  refine peek?_bind fun token hkind htext => ?_
  have hrest : ∀ l : Lexeme, Parses (Parser.advance >>= fun _ => Pure.pure (Segment.member name))
      ⟨l :: ls, names⟩ (.member name) ⟨ls, names⟩ := fun l => advance.bind (pure _)
  split at hkind
  · next hplain =>
      rw [if_pos hplain] at htext
      have htext : token.text = name := htext
      rcases Lexeme.kind_word name with hword | hword
        <;> simpa only [hkind, hword, htext] using hrest _
  · next hplain =>
      rw [if_neg hplain] at htext
      simpa only [hkind, htext, unescape_quoteName h] using hrest _

theorem indexStep_natural (n : UInt32) :
    Parses Parser.indexStep ⟨.natural n.toNat :: .rightBracket :: ls, names⟩ (.index n)
      ⟨ls, names⟩ := by
  rw [Parser.indexStep]
  refine peek?_bind fun token hkind htext => ?_
  have hkind : token.kind = .integer := hkind
  have htext : token.text = n.toNat.repr := htext
  have hread : Decimal.naturalBelow? UInt32.size token.text.toList = some n.toNat := by
    rw [htext, Nat.toList_repr, Decimal.naturalBelow?_toDigits n.toNat_lt]
  simp only [hkind, hread, UInt32.ofNat_toNat]
  exact (pure _).bind (advance.bind ((expect rfl).bind (pure _)))

theorem indexStep_star :
    Parses Parser.indexStep ⟨.star :: .rightBracket :: ls, names⟩ .indexWildcard ⟨ls, names⟩ := by
  rw [Parser.indexStep]
  refine peek?_bind fun token hkind _ => ?_
  have hkind : token.kind = .star := hkind
  simp only [hkind]
  exact (pure _).bind (advance.bind ((expect rfl).bind (pure _)))

theorem pathStep? {step : Segment} (h : step.Printable) :
    Parses Parser.pathStep? ⟨step.lexemes ++ ls, names⟩ (some step) ⟨ls, names⟩ := by
  rw [Parser.pathStep?]
  cases step with
  | member name => exact bind_true (accept rfl) ((memberStep h).bind (pure _))
  | memberWildcard => exact bind_false (reject rfl) (bind_true (accept rfl) (pure _))
  | doubleWildcard =>
      exact bind_false (reject rfl) (bind_false (reject rfl)
        (bind_true (accept rfl) (pure _)))
  | index n =>
      exact bind_false (reject rfl) (bind_false (reject rfl)
        (bind_false (reject rfl) (bind_true (accept rfl)
          ((indexStep_natural n).bind (pure _)))))
  | indexWildcard =>
      exact bind_false (reject rfl) (bind_false (reject rfl)
        (bind_false (reject rfl) (bind_true (accept rfl) (indexStep_star.bind (pure _)))))

theorem pathStep?_none (h : s.EndsPath) : Parses Parser.pathStep? s none s := by
  have hne : ∀ kind : TokenKind, kind.startsStep = true → s.kindAt 0 ≠ kind := by
    rintro kind hstep rfl
    rw [h] at hstep
    cases hstep
  rw [Parser.pathStep?]
  exact bind_false (accept_false (hne _ rfl)) (bind_false (accept_false (hne _ rfl))
    (bind_false (accept_false (hne _ rfl)) (bind_false (accept_false (hne _ rfl)) (pure _))))

/-- Steps are read up to what is no step; each has a lexeme at least. -/
theorem pathSteps {steps : List Segment} {bound : Nat} (hsteps : ∀ step ∈ steps, step.Printable)
    (hend : Ahead.EndsPath ⟨ls, names⟩) (hbound : steps.length ≤ bound) :
    Parses (Parser.pathSteps bound) ⟨steps.flatMap Segment.lexemes ++ ls, names⟩ steps
      ⟨ls, names⟩ := by
  induction steps generalizing bound with
  | nil =>
      cases bound with
      | zero => exact pure _
      | succ bound => exact (pathStep?_none hend).bind (pure _)
  | cons step more ih =>
      cases bound with
      | zero => cases hbound
      | succ bound =>
          have hmore := ih (fun x hx => hsteps x (List.mem_cons_of_mem _ hx))
            (Nat.le_of_succ_le_succ hbound)
          rw [List.flatMap_cons, List.append_assoc]
          exact (pathStep? (hsteps step List.mem_cons_self)).bind (hmore.bind (pure _))

/-- Where everything has a lexeme at least, there are as many lexemes. -/
theorem length_le_flatMap {α : Type} {f : α → List Lexeme} (h : ∀ a, f a ≠ []) (items : List α) :
    items.length ≤ (items.flatMap f).length := by
  induction items with
  | nil => exact Nat.le_refl _
  | cons item more ih =>
      have hitem : 0 < (f item).length := List.length_pos_iff.mpr (h item)
      rw [List.flatMap_cons, List.length_append, List.length_cons]
      omega

theorem pathFrom {path : Path} (hpath : path.Printable) (hend : Ahead.EndsPath ⟨ls, names⟩) :
    Parses (Parser.pathFrom []) ⟨path.segments.flatMap Segment.lexemes ++ ls, names⟩ path
      ⟨ls, names⟩ := by
  have hbound : path.segments.length
      ≤ (path.segments.flatMap Segment.lexemes ++ ls).length := by
    have hstep : ∀ step : Segment, step.lexemes ≠ [] := by
      intro step
      cases step <;> simp [Segment.lexemes]
    have hsteps := length_le_flatMap hstep path.segments
    rw [List.length_append]
    omega
  rw [Parser.pathFrom]
  refine remaining.bind ((pathSteps hpath.segments hend hbound).bind ?_)
  simp only [List.nil_append]
  rw [if_neg hpath.closed]
  exact pure _

end Parses

end DocStore
