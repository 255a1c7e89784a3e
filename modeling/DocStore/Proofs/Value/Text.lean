import DocStore.Proofs.Json.Scalar
import DocStore.Proofs.Value.Tree
import DocStore.Value.Order

/-!
# The text of a value

Main statement: `text_append_inj`.  The text of a value without floating-point numbers can be read in
one way only, also when more text follows, as long as that does not go on with a numeral.  So values
of one text have one JSON tree (`text_inj`).

The first character of a text tells the class of the value; within a class, a scalar's text is read
by `Json.Scalar`, and the text of an array or object element by element.
-/

namespace DocStore.Value

open Json (EndsNumeral)

variable {a b : Value} {r s : List Char}

/-! ## Elements between brackets -/

section Elements

variable {α β : Type} {text : α → List Char} {tree : α → β} {P : α → Prop} {xs ys : List α}
  {close : Char}

/-- The text of `x` tells the tree of `x` and where it ends, among the texts of all that is `P`. -/
def Readable (text : α → List Char) (tree : α → β) (P : α → Prop) (x : α) : Prop :=
  ∀ y r s, P y → EndsNumeral r → EndsNumeral s → text x ++ r = text y ++ s → tree x = tree y ∧ r = s

/-- The text of elements after the first one, each with a comma before it. -/
def furtherText (text : α → List Char) (xs : List α) : List Char :=
  xs.flatMap fun x => ',' :: text x

theorem intercalate_cons (x : α) (xs : List α) :
    [','].intercalate ((x :: xs).map text) = text x ++ furtherText text xs := by
  induction xs generalizing x with
  | nil => simp [furtherText]
  | cons y ys ih =>
      rw [List.map_cons, List.map_cons, List.intercalate_cons_cons, ← List.map_cons, ih]
      simp [furtherText]

theorem endsNumeral_furtherText (hclose : Json.isNumeral close = false) :
    EndsNumeral (furtherText text xs ++ close :: r) := by
  cases xs with
  | nil => exact Json.endsNumeral_cons hclose
  | cons x xs => exact Json.endsNumeral_cons rfl

theorem furtherText_append_inj (hcomma : close ≠ ',') (hclose : Json.isNumeral close = false)
    (hxs : ∀ x ∈ xs, Readable text tree P x) (hys : ∀ y ∈ ys, P y)
    (h : furtherText text xs ++ close :: r = furtherText text ys ++ close :: s) :
    xs.map tree = ys.map tree ∧ r = s := by
  induction xs generalizing ys with
  | nil =>
      cases ys with
      | nil => exact ⟨rfl, (List.cons.inj h).2⟩
      | cons y ys => exact absurd (List.cons.inj h).1 hcomma
  | cons x xs ih =>
      cases ys with
      | nil => exact absurd (List.cons.inj h).1.symm hcomma
      | cons y ys =>
          obtain ⟨hx, hxs⟩ := List.forall_mem_cons.mp hxs
          obtain ⟨hy, hys⟩ := List.forall_mem_cons.mp hys
          simp only [furtherText, List.flatMap_cons, List.cons_append, List.append_assoc,
            List.cons.injEq, true_and] at h
          obtain ⟨htree, hrest⟩ := hx y _ _ hy (endsNumeral_furtherText hclose)
            (endsNumeral_furtherText hclose) h
          obtain ⟨htrees, hend⟩ := ih hxs hys hrest
          exact ⟨by rw [List.map_cons, List.map_cons, htree, htrees], hend⟩

theorem elements_append_inj (hcomma : close ≠ ',') (hclose : Json.isNumeral close = false)
    (hfirst : ∀ x, P x → ∃ c cs, text x = c :: cs ∧ c ≠ close)
    (hxs : ∀ x ∈ xs, P x) (hys : ∀ y ∈ ys, P y) (hread : ∀ x ∈ xs, Readable text tree P x)
    (h : [','].intercalate (xs.map text) ++ close :: r
      = [','].intercalate (ys.map text) ++ close :: s) :
    xs.map tree = ys.map tree ∧ r = s := by
  -- An element does not start with the closing bracket.
  have hne : ∀ {x r' s'}, P x → text x ++ r' ≠ close :: s' := by
    intro x r' s' hx heq
    obtain ⟨c, cs, htext, hc⟩ := hfirst x hx
    rw [htext] at heq
    exact hc (List.cons.inj heq).1
  cases xs with
  | nil =>
      cases ys with
      | nil => exact ⟨rfl, (List.cons.inj h).2⟩
      | cons y ys =>
          rw [intercalate_cons, List.append_assoc] at h
          exact absurd h.symm (hne (hys y List.mem_cons_self))
  | cons x xs =>
      rw [intercalate_cons, List.append_assoc] at h
      cases ys with
      | nil => exact absurd h (hne (hxs x List.mem_cons_self))
      | cons y ys =>
          rw [intercalate_cons, List.append_assoc] at h
          obtain ⟨hx, hxs⟩ := List.forall_mem_cons.mp hread
          obtain ⟨hy, hys⟩ := List.forall_mem_cons.mp hys
          obtain ⟨htree, hrest⟩ := hx y _ _ hy (endsNumeral_furtherText hclose)
            (endsNumeral_furtherText hclose) h
          obtain ⟨htrees, hend⟩ := furtherText_append_inj hcomma hclose hxs hys hrest
          exact ⟨by rw [List.map_cons, List.map_cons, htree, htrees], hend⟩

end Elements

/-! ## The texts of values -/

/-- The characters of a value's text. -/
def chars (v : Value) : List Char := v.text.toList

def memberChars (member : String × Value) : List Char :=
  Json.quoteChars member.1.toList ++ ':' :: member.2.chars

def memberTree (member : String × Value) : String × Json := (member.1, member.2.toJson)

theorem toJsonItems_eq_map (items : List Value) : toJsonItems items = items.map toJson := by
  induction items with
  | nil => rfl
  | cons v rest ih => rw [toJsonItems, ih, List.map_cons]

theorem toJsonMembers_eq_map (members : Document) :
    toJsonMembers members = members.map memberTree := by
  induction members with
  | nil => rfl
  | cons member rest ih => rw [toJsonMembers, ih, List.map_cons, memberTree]

theorem compressItems_eq_map (items : List Json) :
    Json.compressItems items = items.map Json.compress := by
  induction items with
  | nil => rfl
  | cons item rest ih => rw [Json.compressItems, ih, List.map_cons]

theorem compressMembers_eq_map (members : List (String × Json)) :
    Json.compressMembers members
      = members.map fun member => Json.quote member.1 ++ ":" ++ member.2.compress := by
  induction members with
  | nil => rfl
  | cons member rest ih => rw [Json.compressMembers, ih, List.map_cons]

theorem chars_str (s : String) : (str s).chars = Json.quoteChars s.toList := by
  simp [chars, text, toJson, Json.compress, Json.quote]

theorem chars_arr (items : List Value) :
    (arr items).chars = '[' :: ([','].intercalate (items.map chars) ++ [']']) := by
  rw [chars, text, toJson, Json.compress, toJsonItems_eq_map, compressItems_eq_map]
  simp only [Json.joinWith, String.toList_append, String.toList_intercalate, List.map_map]
  rfl

theorem chars_obj (members : Document) :
    (obj members).chars = '\x7b' :: ([','].intercalate (members.map memberChars) ++ ['\x7d']) := by
  rw [chars, text, toJson, Json.compress, toJsonMembers_eq_map, compressMembers_eq_map]
  simp [Json.joinWith, String.toList_intercalate, Function.comp_def, Json.quote, memberTree]
  rfl

/-! ## The first character -/

/-- The rank of the values whose texts start with a character. -/
def rankOf (c : Char) : Nat :=
  if Json.isNumeral c then 1
  else match c with
    | 'n' => 0
    | '"' => 2
    | 't' | 'f' => 3
    | '[' => 4
    | '\x7b' => 5
    | _ => 6

theorem repr_eq_cons (i : Int) : ∃ c cs, i.repr.toList = c :: cs ∧ rankOf c = 1 := by
  cases h : i.repr.toList with
  | nil =>
      have hread := Decimal.integer?_repr i
      rw [h] at hread
      cases hread
  | cons c cs =>
      have hc : Json.isNumeral c = true := Json.isNumeral_of_mem_repr (h ▸ List.mem_cons_self)
      exact ⟨c, cs, rfl, if_pos hc⟩

theorem chars_eq_cons (h : a.hasFloat = false) :
    ∃ c cs, a.chars = c :: cs ∧ rankOf c = a.rank := by
  cases a with
  | null => exact ⟨'n', _, rfl, rfl⟩
  | bool b => cases b <;> exact ⟨_, _, rfl, rfl⟩
  | int i => exact repr_eq_cons i.toInt
  | uint n => exact repr_eq_cons n.toNat
  | float x => simp at h
  | str s => exact ⟨'"', _, chars_str s, rfl⟩
  | arr items => exact ⟨'[', _, chars_arr items, rfl⟩
  | obj members => exact ⟨'\x7b', _, chars_obj members, rfl⟩

/-- No text starts with the bracket that closes an array. -/
theorem chars_eq_cons_ne (h : a.hasFloat = false) : ∃ c cs, a.chars = c :: cs ∧ c ≠ ']' := by
  obtain ⟨c, cs, hc, hrank⟩ := chars_eq_cons h
  refine ⟨c, cs, hc, ?_⟩
  rintro rfl
  rw [show rankOf ']' = 6 from rfl] at hrank
  cases a <;> simp [rank] at hrank

/-! ## Reading a text -/

theorem rank_eq_of_append_eq (ha : a.hasFloat = false) (hb : b.hasFloat = false)
    (h : a.chars ++ r = b.chars ++ s) : a.rank = b.rank := by
  obtain ⟨c, cs, hc, hrank⟩ := chars_eq_cons ha
  obtain ⟨d, ds, hd, hrank'⟩ := chars_eq_cons hb
  rw [hc, hd] at h
  rw [← hrank, ← hrank', (List.cons.inj h).1]

/-- Whether an integer is an `int` or a `uint` is not written, and no part of its tree. -/
theorem int_append_inj {i j : Int} (hr : EndsNumeral r) (hs : EndsNumeral s)
    (h : i.repr.toList ++ r = j.repr.toList ++ s) : Json.int i = Json.int j ∧ r = s := by
  obtain ⟨rfl, hrest⟩ := Json.repr_append_inj hr hs h
  exact ⟨rfl, hrest⟩

/-- The induction is on the first value.  The second has the same rank, so in each case it is of the
same class, or one of the two is an `int` and the other a `uint`. -/
theorem append_inj_of_rank (ha : a.hasFloat = false) (hb : b.hasFloat = false) (hr : EndsNumeral r)
    (hs : EndsNumeral s) (hrank : a.rank = b.rank) (h : a.chars ++ r = b.chars ++ s) :
    a.toJson = b.toJson ∧ r = s := by
  induction a using tree_induction generalizing b r s with
  | null =>
      cases b <;> try (simp [rank] at hrank; done)
      case null => exact ⟨rfl, List.append_cancel_left h⟩
  | bool x =>
      cases b <;> try (simp [rank] at hrank; done)
      case bool y =>
        cases x <;> cases y
        · exact ⟨rfl, List.append_cancel_left h⟩
        · exact absurd (List.cons.inj h).1 (by decide)
        · exact absurd (List.cons.inj h).1 (by decide)
        · exact ⟨rfl, List.append_cancel_left h⟩
  | int i =>
      cases b <;> try (simp [rank] at hrank; done)
      case int j => exact int_append_inj hr hs h
      case uint n => exact int_append_inj hr hs h
      case float x => simp at hb
  | uint m =>
      cases b <;> try (simp [rank] at hrank; done)
      case int j => exact int_append_inj hr hs h
      case uint n => exact int_append_inj hr hs h
      case float x => simp at hb
  | float x => simp at ha
  | str x =>
      cases b <;> try (simp [rank] at hrank; done)
      case str y =>
        rw [chars_str, chars_str] at h
        obtain ⟨htext, hrest⟩ := Json.quoteChars_append_inj h
        exact ⟨by rw [String.toList_inj.mp htext], hrest⟩
  | arr xs ih =>
      cases b <;> try (simp [rank] at hrank; done)
      case arr ys =>
        rw [hasFloat_arr] at ha hb
        simp only [chars_arr, List.cons_append, List.append_assoc, List.cons.injEq, true_and,
          List.nil_append] at h
        have hread : ∀ x ∈ xs, Readable chars toJson (fun v => v.hasFloat = false) x := by
          intro x hx y r s hy hr hs h
          exact ih x hx (ha x hx) hy hr hs (rank_eq_of_append_eq (ha x hx) hy h) h
        obtain ⟨htrees, hrest⟩ := elements_append_inj (by decide) rfl
          (fun v hv => chars_eq_cons_ne hv) ha hb hread h
        exact ⟨by rw [toJson, toJson, toJsonItems_eq_map, toJsonItems_eq_map, htrees], hrest⟩
  | obj ms ih =>
      cases b <;> try (simp [rank] at hrank; done)
      case obj ns =>
        rw [hasFloat_obj] at ha hb
        simp only [chars_obj, List.cons_append, List.append_assoc, List.cons.injEq, true_and,
          List.nil_append] at h
        -- A member's text starts with a string, which ends by itself, and goes on with the value.
        have hread : ∀ member ∈ ms,
            Readable memberChars memberTree (fun member => member.2.hasFloat = false) member := by
          rintro ⟨key, v⟩ hmem ⟨key', w⟩ r s hw hr hs h
          rw [memberChars, memberChars, List.append_assoc, List.append_assoc] at h
          obtain ⟨hkey, h⟩ := Json.quoteChars_append_inj h
          have h : v.chars ++ r = w.chars ++ s := (List.cons.inj h).2
          obtain ⟨htree, hrest⟩ := ih (key, v) hmem (ha _ hmem) hw hr hs
            (rank_eq_of_append_eq (ha _ hmem) hw h) h
          refine ⟨?_, hrest⟩
          dsimp only at hkey htree
          rw [memberTree, memberTree, htree, String.toList_inj.mp hkey]
        obtain ⟨htrees, hrest⟩ := elements_append_inj (by decide) rfl
          (fun _ _ => ⟨'"', _, rfl, by decide⟩) ha hb hread h
        exact ⟨by rw [toJson, toJson, toJsonMembers_eq_map, toJsonMembers_eq_map, htrees], hrest⟩

/-- The text of a value tells its tree and where it ends. -/
theorem text_append_inj (ha : a.hasFloat = false) (hb : b.hasFloat = false) (hr : EndsNumeral r)
    (hs : EndsNumeral s) (h : a.chars ++ r = b.chars ++ s) : a.toJson = b.toJson ∧ r = s :=
  append_inj_of_rank ha hb hr hs (rank_eq_of_append_eq ha hb h) h

end DocStore.Value
