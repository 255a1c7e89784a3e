import DocStore.Proofs.Update.OnePlace
import DocStore.Proofs.Value.Containment

/-!
# Filters on what is contained

Main statement: `Value.contains_preorder`.  Containment is a preorder of values without
floating-point numbers, and what an array contains it still contains when more is appended.  So a
filter `target IN container` that lets a row through still does when the container has grown, in
particular by an update that appends to an array anywhere inside it.
-/

namespace DocStore

/-! ## Containers that grow inside -/

namespace Value

variable {v w inner new : Value} {segment : Segment} {segments : List Segment} {f : Value → Value}

/-- What a value contains it still contains when one of its children is replaced by one that contains
as much. -/
theorem contains_setChild (hchild : child? segment v = some inner)
    (hnew : ∀ u, inner.contains u = true → new.contains u = true) (h : v.contains w = true) :
    (setChild segment new v).contains w = true := by
  obtain ⟨name, members, rfl, rfl, hmember⟩ | ⟨n, items, rfl, rfl, hn, hitem⟩ := child?_cases hchild
  · obtain ⟨wanted, rfl⟩ := exists_of_obj_contains h
    rw [contains_obj_obj] at h
    refine contains_obj_obj.mpr fun member hmem => ?_
    obtain ⟨u, hu, hcontains⟩ := h member hmem
    by_cases hname : member.1 = name
    · rw [hname, hmember] at hu
      cases hu
      refine ⟨new, ?_, hnew _ hcontains⟩
      rw [hname, Assoc.get?_modify_self, hmember, Option.map_some]
    · exact ⟨u, (Assoc.get?_modify_of_ne members _ hname).trans hu, hcontains⟩
  · rw [contains_arr] at h
    refine contains_arr.mpr fun u hu => ?_
    obtain ⟨x, hx, hxu⟩ := h u hu
    obtain ⟨i, hi, rfl⟩ := List.getElem_of_mem hx
    by_cases hindex : i = n.toNat
    · subst hindex
      exact ⟨new, List.mem_set hn new, hnew u (hitem ▸ hxu)⟩
    · refine ⟨items[i], List.mem_iff_getElem?.mpr ⟨i, ?_⟩, hxu⟩
      rw [List.getElem?_set_ne (Ne.symm hindex), List.getElem?_eq_getElem hi]

theorem contains_modifyAt (hinner : lookup? segments v = some inner)
    (hf : ∀ u, inner.contains u = true → (f inner).contains u = true) (h : v.contains w = true) :
    (modifyAt f segments v).contains w = true := by
  induction segments generalizing v w with
  | nil =>
      cases hinner
      exact hf w h
  | cons segment rest ih =>
      rw [lookup?] at hinner
      obtain ⟨child, hchild, hrest⟩ := Option.bind_eq_some_iff.mp hinner
      rw [modifyAt_cons hchild]
      exact contains_setChild hchild (fun u => ih hrest) h

theorem modifyAt_append (f : Value → Value) (before after : List Segment) (v : Value) :
    modifyAt f (before ++ after) v = modifyAt (modifyAt f after) before v := by
  induction before generalizing v with
  | nil => rfl
  | cons segment before ih =>
      rw [List.cons_append, modifyAt, modifyAt]
      cases child? segment v with
      | none => rfl
      | some inner => exact congrArg (setChild segment · v) (ih inner)

/-- The value on the way to a changed place is changed inside. -/
theorem lookup?_modifyAt_before (f : Value → Value) {before : List Segment} (after : List Segment)
    (h : lookup? before v = some inner) :
    lookup? before (modifyAt f (before ++ after) v) = some (modifyAt f after inner) := by
  have hfound := lookup?_modifyAt_append (f := modifyAt f after) before [] v
  rwa [List.append_nil, ← modifyAt_append, h] at hfound

end Value

/-! ## The filter -/

namespace Expr

open Value Eval

variable {target container : Expr} {more : List Expr} {row row' v v' : Value}

theorem eval_isIn_container {scope : Scope} {t : Value} (htarget : target.eval scope = .ok t)
    (hcontainer : container.eval scope = .ok v) :
    (isIn target (container :: more) false .container).eval scope
      = .ok (if t.isNull || v.isNull then .null else .bool (v.contains t)) := by
  have hfirst : evalFirst (container :: more) scope = .ok v := hcontainer
  rw [eval, htarget]
  show (if t.isNull then _ else (evalFirst (container :: more) scope >>= _)) = _
  rw [hfirst]
  cases t.isNull with
  | true => rfl
  | false =>
      have htruth : truth (v.contains t) false = .bool (v.contains t) := by
        rw [truth, Bool.bne_false]
      cases v with
      | null => rfl
      | _ => exact congrArg Except.ok htruth

/-- A row passes if its target is something, and is in its container. -/
theorem passes_isIn_iff (hcontainer : container.eval (.row row) = .ok v) :
    passes (some (.isIn target (container :: more) false .container)) row = .ok true
      ↔ ∃ t, target.eval (.row row) = .ok t ∧ t.isNull = false ∧ v.contains t = true := by
  cases htarget : target.eval (.row row) with
  | error e =>
      rw [passes, eval, htarget]
      constructor
      · intro h
        cases h
      · rintro ⟨t, ht, -⟩
        cases ht
  | ok t =>
      have hexists : (∃ u, (Except.ok t : Except DocError Value) = .ok u ∧ u.isNull = false
          ∧ v.contains u = true) ↔ t.isNull = false ∧ v.contains t = true := by
        constructor
        · rintro ⟨u, heq, h⟩
          cases heq
          exact h
        · exact fun h => ⟨t, rfl, h⟩
      rw [passes, eval_isIn_container htarget hcontainer, hexists]
      show (Except.ok (Value.isTruthy _) : Except DocError Bool) = .ok true ↔ _
      rw [Except.ok.injEq]
      cases hnull : t.isNull with
      | true => simp [isTruthy]
      | false =>
          cases v with
          | null =>
              rw [null_contains, hnull]
              simp [isTruthy, isNull]
          | _ => simp [isTruthy, isNull]

theorem eval_field_of_lookup? {path : Path} (hexact : path.isExact = true)
    (h : lookup? path.segments row = some v) : (field path).eval (.row row) = .ok v :=
  congrArg Except.ok (Path.valueIn_of_lookup? hexact h)

/-- A row still passes when its target is the same and its container contains as much. -/
theorem passes_isIn_of_grown (hcontainer : container.eval (.row row) = .ok v)
    (hgrown : container.eval (.row row') = .ok v')
    (hmore : ∀ t, v.contains t = true → v'.contains t = true)
    (htarget : target.eval (.row row') = target.eval (.row row))
    (h : passes (some (.isIn target (container :: more) false .container)) row = .ok true) :
    passes (some (.isIn target (container :: more) false .container)) row' = .ok true := by
  obtain ⟨t, ht, hnull, hin⟩ := (passes_isIn_iff hcontainer).mp h
  exact (passes_isIn_iff hgrown).mpr ⟨t, htarget.trans ht, hnull, hmore t hin⟩

end Expr

namespace Value

open DocStore.Expr

/-- Containment is a preorder of values without floating-point numbers, and an array contains what it
contained before more was appended.  So a row that passes a filter on what is contained in an array
still passes when more is appended to the array, or by an update to an array inside the container, as
long as the target is the same. -/
theorem contains_preorder :
    (∀ a : Value, a.hasDistinctNames = true → a.hasFloat = false → a.contains a = true)
      ∧ (∀ a b c : Value, a.hasFloat = false → b.hasFloat = false →
        a.contains b = true → b.contains c = true → a.contains c = true)
      ∧ (∀ (xs more : List Value) (w : Value),
        (arr xs).contains w = true → (arr (xs ++ more)).contains w = true)
      ∧ (∀ (target container : Expr) (others : List Expr) (row row' : Value) (xs more : List Value),
        container.eval (.row row) = .ok (.arr xs) →
        container.eval (.row row') = .ok (.arr (xs ++ more)) →
        target.eval (.row row') = target.eval (.row row) →
        passes (some (.isIn target (container :: others) false .container)) row = .ok true →
        passes (some (.isIn target (container :: others) false .container)) row' = .ok true)
      ∧ ∀ (doc : Document) (container place : Path) (rest : List Segment) (value : Expr)
          (new : Value) (xs : List Value),
        place.IsPlace → place.segments = container.segments ++ rest →
        lookup? place.segments (.obj doc) = some (.arr xs) →
        value.eval (.row (.obj doc)) = .ok new →
        ∃ updated, Update.apply [.arrayAppend place value] doc = .ok updated
          ∧ lookup? place.segments (.obj updated) = some (.arr (xs ++ [new]))
          ∧ ∀ (target : Expr) (others : List Expr),
            target.eval (.row (.obj updated)) = target.eval (.row (.obj doc)) →
            passes (some (.isIn target (.field container :: others) false .container)) (.obj doc)
              = .ok true →
            passes (some (.isIn target (.field container :: others) false .container))
              (.obj updated) = .ok true := by
  have happend : ∀ (xs more : List Value) (w : Value),
      (arr xs).contains w = true → (arr (xs ++ more)).contains w = true :=
    fun xs more w => contains_arr_of_subset (List.subset_append_left xs more)
  refine ⟨fun a => contains_self, fun a b c => contains_trans, happend, ?_, ?_⟩
  · intro target container others row row' xs more hcontainer hgrown htarget
    exact passes_isIn_of_grown hcontainer hgrown (fun t => happend xs more t) htarget
  · intro doc container place rest value new xs hplace hrest harray hvalue
    have hoperation : (.arrayAppend place value, modifyAt (appendItem new) place.segments)
        ∈ Update.placeOperations place value new := by simp [Update.placeOperations]
    obtain ⟨updated, happly, hupdated⟩ := Update.exists_apply_place hplace hvalue hoperation
    refine ⟨updated, happly, ?_, fun target others htarget => ?_⟩
    · have hfound := lookup?_modifyAt_before (appendItem new) [] harray
      rwa [List.append_nil, ← hupdated] at hfound
    · -- The container is on the way to the array, so it is changed inside.
      rw [hrest, lookup?_append] at harray
      obtain ⟨inner, hinner, harray⟩ := Option.bind_eq_some_iff.mp harray
      have hfound := lookup?_modifyAt_before (appendItem new) rest hinner
      rw [← hrest, ← hupdated] at hfound
      have hexact : container.isExact = true := by
        have hall := hplace.exact
        rw [Path.isExact, hrest, List.all_append] at hall
        exact (Bool.and_eq_true_iff.mp hall).1
      have hcontainer := eval_field_of_lookup? hexact hinner
      have hgrown := eval_field_of_lookup? hexact hfound
      refine passes_isIn_of_grown hcontainer hgrown (fun t => contains_modifyAt harray ?_) htarget
      exact fun u => happend xs [new] u

/-- Authors under their names, with their books in a list that is appended to. -/
theorem contains_preorder_books :
    let book (title : String) : Value := .obj [("title", .str title), ("year", .int 1)]
    let author (books : List Value) : Value := .obj [("name", .str "Ann"), ("books", .arr books)]
    let doc (books : List Value) : Document := [("_id", .str "1"), ("author", author books)]
    let place : Path := ⟨[.member "author", .member "books"]⟩
    let filter : Expr := .isIn (.literal (author [.obj [("title", .str "A")]]))
      [.field (.ofMember "author")] false .container
    let listed : Expr := .isIn (.field (.ofMember "book"))
      [.field ⟨[.member "books", .indexWildcard]⟩] false .container
    let shelf (books : List Value) : Value := .obj [("book", book "A"), ("books", .arr books)]
    (author [book "A"]).contains (author [book "A"]) = true
      ∧ (arr [author [book "A", book "B"]]).contains (author []) = true
      ∧ (arr ([book "A"] ++ [.null])).contains (.arr [book "A", book "A"]) = true
      ∧ passes (some listed) (shelf ([book "A"] ++ [book "B", book "C"])) = .ok true
      ∧ passes (some filter) (.obj (doc [book "A"])) = .ok true
      ∧ ∃ updated, Update.apply [.arrayAppend place (.literal (book "B"))] (doc [book "A"])
          = .ok updated
        ∧ lookup? place.segments (.obj updated) = some (.arr [book "A", book "B"])
        ∧ passes (some filter) (.obj updated) = .ok true := by
  intro book author doc place filter listed shelf
  obtain ⟨hself, htrans, happend, hgrown, hupdate⟩ := contains_preorder
  have hpasses : passes (some filter) (.obj (doc [book "A"])) = .ok true := by
    dsimp only [filter, doc, author, book]
    rfl
  refine ⟨hself _ (by decide) (by decide), ?_, happend _ _ _ (by decide), ?_, hpasses, ?_⟩
  · exact htrans _ (author [book "B"]) _ (by decide) (by decide) (by decide) (by decide)
  · exact hgrown _ _ _ (shelf [book "A"]) (shelf ([book "A"] ++ [book "B", book "C"])) _ _ rfl rfl
      rfl rfl
  · have hplace : place.IsPlace := ⟨rfl, rfl, by decide⟩
    obtain ⟨updated, happly, hfound, hstill⟩ := hupdate (doc [book "A"]) (.ofMember "author") place
      [.member "books"] (.literal (book "B")) (book "B") [book "A"] hplace rfl rfl rfl
    exact ⟨updated, happly, hfound, hstill _ [] rfl hpasses⟩

end Value

end DocStore
