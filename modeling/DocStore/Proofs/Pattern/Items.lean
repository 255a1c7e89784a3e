import Mathlib.Data.List.Forall2

/-!
# The items of `LIKE` patterns

A pattern is a list of items: a literal character, any one character, or any run of characters.
`Like.parse` reads the items off the pattern's text, in the one way there is (`Like.reads_iff`), and a
text is like the pattern if it can be cut into pieces that fit the items one by one (`Like.Splits`).

`Like.isMatch` decides this.  It does not try one cut after another: it goes through the items once and
keeps, for all cuts of what is behind it, what they leave of the text.  A run looks at the longest of
these rests alone, which is enough because each rest is an end of the rests before it (`Nested`).
-/

namespace DocStore

/-- One item of a `LIKE` pattern. -/
inductive LikeItem where
  | literal (c : Char)
  /-- Exactly one character: `_` -/
  | one
  /-- Any number of characters: `%` -/
  | run
  deriving DecidableEq, Repr, Inhabited

/-- The pieces of a text that an item stands for. -/
inductive LikeItem.Fits : LikeItem → List Char → Prop
  | literal (c : Char) : Fits (.literal c) [c]
  | one (c : Char) : Fits .one [c]
  | run (piece : List Char) : Fits .run piece

namespace LikeItem

variable {c : Char} {piece : List Char}

theorem fits_literal_iff : (literal c).Fits piece ↔ piece = [c] :=
  ⟨fun h => by cases h; rfl, fun h => h ▸ .literal c⟩

theorem fits_one_iff : one.Fits piece ↔ ∃ c, piece = [c] :=
  ⟨fun h => by cases h with | one c => exact ⟨c, rfl⟩, fun ⟨c, h⟩ => h ▸ .one c⟩

end LikeItem

namespace Like

/-! ## Reading a pattern -/

/-- An unescaped character as an item. -/
def itemOf (c : Char) : LikeItem :=
  if c = '%' then .run else if c = '_' then .one else .literal c

/-- The items of a pattern.  The escape character makes the character after it literal, and is
itself literal at the end. -/
def parse (escape : Option Char) : List Char → List LikeItem
  | [] => []
  | [c] => if escape = some c then [.literal c] else [itemOf c]
  | c :: d :: rest =>
    if escape = some c then .literal d :: parse escape rest
    else itemOf c :: parse escape (d :: rest)

/-- How a pattern is read from left to right.  Whether a character is the escape character is asked
first, so an escape character `%` or `_` does not stand for anything else. -/
inductive Reads (escape : Option Char) : List Char → List LikeItem → Prop
  | nil : Reads escape [] []
  | escaped {e c : Char} {rest : List Char} {items : List LikeItem} :
      escape = some e → Reads escape rest items → Reads escape (e :: c :: rest) (.literal c :: items)
  | last {e : Char} : escape = some e → Reads escape [e] [.literal e]
  | run {rest : List Char} {items : List LikeItem} :
      escape ≠ some '%' → Reads escape rest items → Reads escape ('%' :: rest) (.run :: items)
  | one {rest : List Char} {items : List LikeItem} :
      escape ≠ some '_' → Reads escape rest items → Reads escape ('_' :: rest) (.one :: items)
  | literal {c : Char} {rest : List Char} {items : List LikeItem} :
      escape ≠ some c → c ≠ '%' → c ≠ '_' → Reads escape rest items →
        Reads escape (c :: rest) (.literal c :: items)

variable {escape : Option Char} {c : Char} {pattern text rest : List Char}
  {rests : List (List Char)} {item : LikeItem} {items : List LikeItem}

theorem parse_cons_of_ne (h : escape ≠ some c) (rest : List Char) :
    parse escape (c :: rest) = itemOf c :: parse escape rest := by
  cases rest with
  | nil => exact if_neg h
  | cons d rest => exact if_neg h

theorem reads_cons (h : escape ≠ some c) (hrest : Reads escape rest items) :
    Reads escape (c :: rest) (itemOf c :: items) := by
  unfold itemOf
  split
  · next hrun => exact hrun ▸ .run (hrun ▸ h) hrest
  · split
    · next hone => exact hone ▸ .one (hone ▸ h) hrest
    · next hrun hone => exact .literal h hrun hone hrest

theorem reads_parse (escape : Option Char) (pattern : List Char) :
    Reads escape pattern (parse escape pattern) := by
  fun_induction parse escape pattern with
  | case1 => exact .nil
  | case2 c h => exact .last h
  | case3 c h => exact reads_cons h .nil
  | case4 c d rest h ih => exact .escaped h ih
  | case5 c d rest h ih => exact reads_cons h ih

theorem parse_of_reads (h : Reads escape pattern items) : parse escape pattern = items := by
  induction h with
  | nil => rfl
  | escaped he _ ih => rw [parse, if_pos he, ih]
  | last he => exact if_pos he
  | run he _ ih => rw [parse_cons_of_ne he, ih]; rfl
  | one he _ ih => rw [parse_cons_of_ne he, ih]; rfl
  | literal he hrun hone _ ih => rw [parse_cons_of_ne he, ih, itemOf, if_neg hrun, if_neg hone]

theorem reads_iff : Reads escape pattern items ↔ items = parse escape pattern :=
  ⟨fun h => (parse_of_reads h).symm, fun h => h ▸ reads_parse escape pattern⟩

/-! ## Cutting a text -/

/-- Pieces that fit the items, one after the other, are the front of a text and leave the rest. -/
def Leaves (items : List LikeItem) (text rest : List Char) : Prop :=
  ∃ pieces, List.Forall₂ LikeItem.Fits items pieces ∧ pieces.flatten ++ rest = text

/-- The text can be cut into pieces that fit the items one by one. -/
def Splits (items : List LikeItem) (text : List Char) : Prop :=
  ∃ pieces, List.Forall₂ LikeItem.Fits items pieces ∧ pieces.flatten = text

theorem leaves_nil : Leaves [] text rest ↔ rest = text := by
  constructor
  · rintro ⟨pieces, hfits, htext⟩
    cases hfits
    exact htext
  · rintro rfl
    exact ⟨[], .nil, rfl⟩

theorem leaves_cons : Leaves (item :: items) text rest
    ↔ ∃ middle, (∃ piece, item.Fits piece ∧ piece ++ middle = text) ∧ Leaves items middle rest := by
  constructor
  · rintro ⟨pieces, hfits, htext⟩
    cases hfits with
    | @cons _ piece _ others hpiece hothers =>
        rw [List.flatten_cons, List.append_assoc] at htext
        exact ⟨others.flatten ++ rest, ⟨piece, hpiece, htext⟩, others, hothers, rfl⟩
  · rintro ⟨middle, ⟨piece, hpiece, rfl⟩, others, hothers, rfl⟩
    exact ⟨piece :: others, .cons hpiece hothers, by rw [List.flatten_cons, List.append_assoc]⟩

theorem leaves_empty_iff : Leaves items text [] ↔ Splits items text := by
  simp only [Leaves, Splits, List.append_nil]

/-! ## Rests -/

/-- All ends of a text, from itself down to the empty one. -/
def suffixes : List Char → List (List Char)
  | [] => [[]]
  | c :: rest => (c :: rest) :: suffixes rest

/-- What may be left of a text once a piece at its front fits the item. -/
def after (item : LikeItem) (text : List Char) : List (List Char) :=
  match item, text with
  | .literal c, d :: rest => if c = d then [rest] else []
  | .one, _ :: rest => [rest]
  | .run, text => suffixes text
  | _, [] => []

/-- What may be left once an item has been fitted, where `rests` may have been left before.  The
longest rest comes first, so that the rests after a run are those of the first. -/
def step (rests : List (List Char)) (item : LikeItem) : List (List Char) :=
  match item, rests with
  | .run, longest :: _ => suffixes longest
  | item, rests => rests.flatMap (after item)

def isMatch (items : List LikeItem) (text : List Char) : Bool :=
  (items.foldl step [text]).any List.isEmpty

theorem mem_suffixes : rest ∈ suffixes text ↔ rest <:+ text := by
  induction text with
  | nil => rw [suffixes, List.mem_singleton, List.suffix_nil]
  | cons c text ih => rw [suffixes, List.mem_cons, ih, List.suffix_cons_iff]

theorem mem_after : rest ∈ after item text ↔ ∃ piece, item.Fits piece ∧ piece ++ rest = text := by
  cases item with
  | literal c =>
      simp only [LikeItem.fits_literal_iff, exists_eq_left, List.singleton_append]
      cases text with
      | nil => simp [after]
      | cons d text => by_cases h : c = d <;> simp [after, h]
  | one =>
      simp only [LikeItem.fits_one_iff]
      cases text with
      | nil => simp [after]
      | cons d text => simp [after]
  | run =>
      exact mem_suffixes.trans
        ⟨fun ⟨piece, h⟩ => ⟨piece, .run piece, h⟩, fun ⟨piece, _, h⟩ => ⟨piece, h⟩⟩

/-- Each rest is an end of those before it. -/
def Nested (rests : List (List Char)) : Prop :=
  rests.Pairwise fun longer shorter => shorter <:+ longer

theorem nested_suffixes (text : List Char) : Nested (suffixes text) := by
  induction text with
  | nil => exact List.pairwise_singleton _ _
  | cons c text ih =>
      refine List.Pairwise.cons (fun rest hrest => ?_) ih
      exact (mem_suffixes.mp hrest).trans (List.suffix_cons c text)

/-- What may be left once an item has been fitted, for each of the rests. -/
theorem mem_step (h : Nested rests) :
    rest ∈ step rests item ↔ ∃ longer ∈ rests, rest ∈ after item longer := by
  unfold step
  split
  · next longest others =>
      -- What a run leaves of a shorter rest it leaves of the longest as well.
      refine ⟨fun hrest => ⟨longest, List.mem_cons_self, hrest⟩, ?_⟩
      rintro ⟨longer, hlonger, hrest⟩
      obtain rfl | hother := List.mem_cons.mp hlonger
      · exact hrest
      · have hend : longer <:+ longest := List.rel_of_pairwise_cons h hother
        exact mem_suffixes.mpr ((mem_suffixes.mp hrest).trans hend)
  · exact List.mem_flatMap

theorem nested_after (item : LikeItem) (text : List Char) : Nested (after item text) := by
  cases item with
  | literal c =>
      cases text with
      | nil => exact .nil
      | cons d text => by_cases h : c = d <;> simp [Nested, after, h]
  | one =>
      cases text with
      | nil => exact .nil
      | cons d text => exact List.pairwise_singleton _ _
  | run => exact nested_suffixes text

/-- An item that stands for one character takes one from each of two rests. -/
theorem nested_flatMap_after (hitem : ∀ piece, item.Fits piece → ∃ c, piece = [c])
    (h : Nested rests) : Nested (rests.flatMap (after item)) := by
  refine List.pairwise_flatMap.mpr ⟨fun text _ => nested_after item text, h.imp ?_⟩
  intro longer shorter hend left hleft right hright
  obtain ⟨_, hfits, rfl⟩ := mem_after.mp hleft
  obtain ⟨c, rfl⟩ := hitem _ hfits
  obtain ⟨_, hfits, rfl⟩ := mem_after.mp hright
  obtain ⟨d, rfl⟩ := hitem _ hfits
  obtain heq | hend := List.suffix_cons_iff.mp hend
  · have heq : right = left := (List.cons.inj heq).2
    exact heq ▸ List.suffix_refl right
  · exact (List.suffix_cons d right).trans hend

theorem nested_step (h : Nested rests) (item : LikeItem) : Nested (step rests item) := by
  cases item with
  | literal c => exact nested_flatMap_after (fun _ hfits => ⟨c, LikeItem.fits_literal_iff.mp hfits⟩) h
  | one => exact nested_flatMap_after (fun _ => LikeItem.fits_one_iff.mp) h
  | run =>
      cases rests with
      | nil => exact .nil
      | cons longest others => exact nested_suffixes longest

/-- What the matcher keeps is what the items so far leave of the texts that it started with. -/
theorem mem_foldl_step (h : Nested rests) :
    rest ∈ items.foldl step rests ↔ ∃ text ∈ rests, Leaves items text rest := by
  induction items generalizing rests with
  | nil => simp only [List.foldl_nil, leaves_nil, exists_eq_right']
  | cons item items ih =>
      rw [List.foldl_cons, ih (nested_step h item)]
      simp only [mem_step h, mem_after, leaves_cons]
      constructor
      · rintro ⟨middle, ⟨text, htext, hpiece⟩, hleaves⟩
        exact ⟨text, htext, middle, hpiece, hleaves⟩
      · rintro ⟨text, htext, middle, hpiece, hleaves⟩
        exact ⟨middle, ⟨text, htext, hpiece⟩, hleaves⟩

theorem isMatch_iff_splits : isMatch items text = true ↔ Splits items text := by
  have hstart : Nested [text] := List.pairwise_singleton _ _
  rw [isMatch, List.any_eq_true, ← leaves_empty_iff]
  constructor
  · rintro ⟨rest, hrest, hempty⟩
    obtain ⟨_, hmem, hleaves⟩ := (mem_foldl_step hstart).mp hrest
    cases List.mem_singleton.mp hmem
    exact List.isEmpty_iff.mp hempty ▸ hleaves
  · intro hleaves
    exact ⟨[], (mem_foldl_step hstart).mpr ⟨text, List.mem_singleton_self _, hleaves⟩, rfl⟩

end Like

end DocStore
