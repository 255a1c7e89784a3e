import DocStore.Proofs.Assoc
import DocStore.Update

/-!
# What stands at a place after a change

The laws of the functions that follow a path.  Two questions are answered for each of them: what is
found at the path itself, and what is found where another path has left it for another member of an
object (the lemmas that end in `_of_ne`).  One step is settled first, against `child?`; a path is then
an induction over its steps, against `lookup?`.

A step changes what is found under its own name alone.  For an index this does not hold, since
removing and inserting move the items behind, so the lemmas speak of members.
-/

namespace DocStore

namespace Value

variable {segment step : Segment} {segments rest : List Segment} {name : String}
variable {v new old inner : Value} {f : Value → Value}

/-! ## One step -/

/-- A child is a member of an object or an item of an array. -/
theorem child?_cases (h : child? segment v = some inner) :
    (∃ name members, segment = .member name ∧ v = .obj members
        ∧ Assoc.get? members name = some inner)
      ∨ ∃ (n : UInt32) (items : List Value), segment = .index n ∧ v = .arr items
        ∧ ∃ hn : n.toNat < items.length, items[n.toNat] = inner := by
  cases segment with
  | member name =>
      cases v with
      | obj members => exact .inl ⟨name, members, rfl, rfl, h⟩
      | _ => cases h
  | index n =>
      cases v with
      | arr items => exact .inr ⟨n, items, rfl, rfl, List.getElem?_eq_some_iff.mp h⟩
      | _ => cases h
  | _ => cases h

theorem child?_setChild (h : child? segment v = some old) :
    child? segment (setChild segment new v) = some new := by
  obtain ⟨name, members, rfl, rfl, hget⟩ | ⟨n, items, rfl, rfl, hn, -⟩ := child?_cases h
  · rw [setChild, child?, Assoc.get?_modify_self, hget, Option.map_some]
  · exact List.getElem?_set_self hn

theorem child?_setChild_of_ne (h : step ≠ .member name) :
    child? (.member name) (setChild step new v) = child? (.member name) v := by
  cases step with
  | member other =>
      have hne : name ≠ other := fun heq => h (heq ▸ rfl)
      cases v with
      | obj members => exact Assoc.get?_modify_of_ne members _ hne
      | _ => rfl
  | _ => cases v <;> rfl

theorem child?_removeChild_of_ne (h : step ≠ .member name) :
    child? (.member name) (removeChild step v) = child? (.member name) v := by
  cases step with
  | member other =>
      have hne : name ≠ other := fun heq => h (heq ▸ rfl)
      cases v with
      | obj members => exact Assoc.get?_erase_of_ne members hne
      | _ => rfl
  | _ => cases v <;> rfl

/-- Nothing is inserted into an object. -/
theorem child?_insertItem : child? (.member name) (insertItem new step v) = child? (.member name) v := by
  cases step <;> cases v <;> rfl

theorem child?_writeLast_of_ne (create : Bool) (h : step ≠ .member name) :
    child? (.member name) (writeLast create new step v) = child? (.member name) v := by
  cases step with
  | member other =>
      have hne : name ≠ other := fun heq => h (heq ▸ rfl)
      cases v with
      | obj members =>
          rw [writeLast]
          split
          · exact Assoc.get?_insert_of_ne members _ hne
          · rfl
      | _ => rfl
  | index n =>
      cases v with
      | arr items =>
          rw [writeLast]
          split
          · rfl
          · split <;> rfl
      | _ => rfl
  | _ => cases v <;> rfl

/-! ### On the way -/

/-- A child that is there is gone through, whether or not missing ones are made. -/
theorem descend?_of_child? (create : Bool) (h : child? segment v = some inner) :
    descend? create segment v = some inner := by
  unfold descend?
  split
  · rw [h, Option.some_or]
  · exact h

/-- What is gone through is a child, or an object made in the place of a missing member. -/
theorem child?_of_descend? {create : Bool} (h : descend? create segment v = some inner) :
    child? segment v = some inner
      ∨ create = true ∧ inner = .obj [] ∧ child? segment v = none
        ∧ ∃ name members, segment = .member name ∧ v = .obj members := by
  unfold descend? at h
  split at h
  · next name members =>
      -- Only for a member of an object does it matter whether missing ones are made.
      cases hchild : child? (.member name) (.obj members) with
      | some w =>
          rw [hchild, Option.some_or] at h
          exact .inl h
      | none =>
          rw [hchild, Option.none_or] at h
          cases create with
          | false => cases h
          | true =>
              cases h
              exact .inr ⟨rfl, rfl, rfl, name, members, rfl, rfl⟩
  · exact .inl h

/-- A value that is there is replaced, whether or not missing ones are added. -/
theorem child?_writeLast_of_child? (create : Bool) (h : child? segment v = some inner) :
    child? segment (writeLast create new segment v) = some new := by
  obtain ⟨name, members, rfl, rfl, hget⟩ | ⟨n, items, rfl, rfl, hn, -⟩ := child?_cases h
  · have hthere : Assoc.contains members name = true := Option.isSome_of_eq_some hget
    rw [writeLast, hthere, Bool.or_true, if_pos rfl]
    exact Assoc.get?_insert_self members name new
  · rw [writeLast, if_pos hn]
    exact List.getElem?_set_self hn

/-- Where a path goes through, it finds what has been written there. -/
theorem child?_writeLast {create : Bool} (h : descend? create segment v = some inner) :
    child? segment (writeLast true new segment v) = some new := by
  rcases child?_of_descend? h with hchild | ⟨-, -, -, name, members, rfl, rfl⟩
  · exact child?_writeLast_of_child? true hchild
  · exact Assoc.get?_insert_self members name new

/-- Writing what is there already changes nothing. -/
theorem writeLast_child? (create : Bool) (h : child? segment v = some inner) :
    writeLast create inner segment v = v := by
  obtain ⟨name, members, rfl, rfl, hget⟩ | ⟨n, items, rfl, rfl, hn, rfl⟩ := child?_cases h
  · rw [writeLast, Assoc.insert_of_get? hget, ite_self]
  · rw [writeLast, if_pos hn, List.set_getElem_self]

/-- Unless missing members are added, nothing is written where nothing is. -/
theorem writeLast_of_child?_none (h : child? segment v = none) :
    writeLast false new segment v = v := by
  cases segment with
  | member name =>
      cases v with
      | obj members =>
          have hget : Assoc.get? members name = none := h
          have hmissing : Assoc.contains members name = false := by
            rw [Assoc.contains, hget, Option.isSome_none]
          rw [writeLast, hmissing, Bool.or_self, if_neg Bool.false_ne_true]
      | _ => rfl
  | index n =>
      cases v with
      | arr items =>
          have hn : ¬n.toNat < items.length := Nat.not_lt.mpr (List.getElem?_eq_none_iff.mp h)
          rw [writeLast, if_neg hn, if_neg Bool.false_ne_true]
      | _ => rfl
  | _ => cases v <;> rfl

/-- Unless missing members are made, a path ends where there is no child. -/
theorem descend?_of_child?_none (h : child? segment v = none) : descend? false segment v = none := by
  unfold descend?
  split
  · rw [h]
    rfl
  · exact h

/-! ## A path -/

theorem lookup?_cons (h : child? segment v = some inner) :
    lookup? (segment :: segments) v = lookup? segments inner := by
  rw [lookup?, h, Option.bind_some]

theorem lookup?_cons_of_none (h : child? segment v = none) :
    lookup? (segment :: segments) v = none := by
  rw [lookup?, h, Option.bind_none]

theorem lookup?_append (before after : List Segment) (v : Value) :
    lookup? (before ++ after) v = (lookup? before v).bind (lookup? after) := by
  induction before generalizing v with
  | nil => rfl
  | cons segment before ih =>
      rw [List.cons_append, lookup?, lookup?]
      cases child? segment v with
      | none => rfl
      | some inner => exact ih inner

/-- An empty object has nothing inside it. -/
theorem lookup?_empty (segment : Segment) (segments : List Segment) :
    lookup? (segment :: segments) (.obj []) = none := by
  cases segment <;> rfl

/-! ### Changing what is there -/

theorem modifyAt_cons (h : child? segment v = some inner) :
    modifyAt f (segment :: segments) v = setChild segment (modifyAt f segments inner) v := by
  rw [modifyAt, h]

theorem modifyAt_cons_of_none (h : child? segment v = none) :
    modifyAt f (segment :: segments) v = v := by
  rw [modifyAt, h]

/-- Beyond the end of the path, one finds what is in the image. -/
theorem lookup?_modifyAt_append (before after : List Segment) (v : Value) :
    lookup? (before ++ after) (modifyAt f before v)
      = (lookup? before v).bind fun w => lookup? after (f w) := by
  induction before generalizing v with
  | nil => rfl
  | cons segment before ih =>
      rw [List.cons_append]
      cases h : child? segment v with
      | none =>
          rw [modifyAt_cons_of_none h, lookup?_cons_of_none h, lookup?_cons_of_none h,
            Option.bind_none]
      | some inner =>
          rw [modifyAt_cons h, lookup?_cons (child?_setChild h), lookup?_cons h]
          exact ih inner

/-- Where a path has left the changed one for another member, it finds what it found before. -/
theorem lookup?_modifyAt_of_ne (common others : List Segment) (v : Value)
    (h : step ≠ .member name) :
    lookup? (common ++ .member name :: others) (modifyAt f (common ++ step :: rest) v)
      = lookup? (common ++ .member name :: others) v := by
  induction common generalizing v with
  | nil =>
      rw [List.nil_append, List.nil_append, modifyAt]
      split
      · rw [lookup?, child?_setChild_of_ne h, lookup?]
      · rfl
  | cons segment common ih =>
      rw [List.cons_append, List.cons_append]
      cases hchild : child? segment v with
      | none => rw [modifyAt_cons_of_none hchild]
      | some inner =>
          rw [modifyAt_cons hchild, lookup?_cons (child?_setChild hchild), lookup?_cons hchild]
          exact ih inner

/-- The last step of a path that is known to have one. -/
theorem atLast_concat (f : Segment → Value → Value) (parents : List Segment) (last : Segment)
    (v : Value) : atLast f (parents ++ [last]) v = modifyAt (f last) parents v := by
  rw [atLast, List.getLast?_concat, List.dropLast_concat]

theorem lookup?_atLast_of_ne {f : Segment → Value → Value} (common others : List Segment) (v : Value)
    (h : step ≠ .member name)
    (hlast : ∀ w, child? (.member name) (f step w) = child? (.member name) w) :
    lookup? (common ++ .member name :: others) (atLast f (common ++ step :: rest) v)
      = lookup? (common ++ .member name :: others) v := by
  rcases List.eq_nil_or_concat rest with rfl | ⟨parents, last, rfl⟩
  · -- The two paths part at the last step.
    rw [atLast_concat, lookup?_modifyAt_append, lookup?_append]
    congr 1
    funext w
    rw [lookup?, lookup?, hlast]
  · have hpath : common ++ step :: (parents ++ [last]) = (common ++ step :: parents) ++ [last] := by
      simp
    rw [List.concat_eq_append, hpath, atLast_concat]
    exact lookup?_modifyAt_of_ne common others v h

/-! ### Writing -/

theorem write_cons (create : Bool) (hrest : rest ≠ [])
    (h : descend? create segment v = some inner) :
    write create new (segment :: rest) v = writeLast true (write create new rest inner) segment v := by
  rw [write, h]
  exact hrest

theorem write_cons_of_none (create : Bool) (hrest : rest ≠ []) (h : descend? create segment v = none) :
    write create new (segment :: rest) v = v := by
  rw [write, h]
  exact hrest

/-- Writing goes along the part of the path that is there. -/
theorem lookup?_write_append (create : Bool) {before : List Segment} (after : List Segment)
    (hrest : rest ≠ []) (h : lookup? before v = some old) :
    lookup? (before ++ after) (write create new (before ++ rest) v)
      = lookup? after (write create new rest old) := by
  induction before generalizing v with
  | nil =>
      cases h
      rfl
  | cons segment before ih =>
      rw [lookup?] at h
      obtain ⟨inner, hchild, hinner⟩ := Option.bind_eq_some_iff.mp h
      have hdescend := descend?_of_child? create hchild
      have hne : before ++ rest ≠ [] := List.append_ne_nil_of_right_ne_nil before hrest
      rw [List.cons_append, List.cons_append, write_cons create hne hdescend,
        lookup?_cons (child?_writeLast hdescend)]
      exact ih hinner

/-- A value that is there is replaced. -/
theorem lookup?_write_of_lookup? (create : Bool) (hne : segments ≠ [])
    (h : lookup? segments v = some old) :
    lookup? segments (write create new segments v) = some new := by
  obtain ⟨parents, last, rfl⟩ := (List.eq_nil_or_concat segments).resolve_left hne
  rw [List.concat_eq_append] at h ⊢
  rw [lookup?_append] at h
  obtain ⟨parent, hparent, hlast⟩ := Option.bind_eq_some_iff.mp h
  obtain ⟨inner, hchild, -⟩ := Option.bind_eq_some_iff.mp hlast
  rw [lookup?_write_append create [last] (List.cons_ne_nil last []) hparent, write]
  exact lookup?_cons (child?_writeLast_of_child? create hchild)

/-- Unless missing members are made, nothing is written where nothing is. -/
theorem write_of_lookup?_none (h : lookup? segments v = none) :
    write false new segments v = v := by
  induction segments generalizing v with
  | nil => rfl
  | cons segment rest ih =>
      cases rest with
      | nil =>
          have hnone : child? segment v = none := by
            rw [lookup?] at h
            cases hchild : child? segment v with
            | none => rfl
            | some inner =>
                rw [hchild] at h
                cases h
          exact writeLast_of_child?_none hnone
      | cons next rest =>
          cases hchild : child? segment v with
          | none =>
              have hdescend : descend? false segment v = none := descend?_of_child?_none hchild
              exact write_cons_of_none false (List.cons_ne_nil next rest) hdescend
          | some inner =>
              rw [lookup?_cons hchild] at h
              have hdescend := descend?_of_child? false hchild
              rw [write_cons false (List.cons_ne_nil next rest) hdescend, ih h]
              exact writeLast_child? true hchild

theorem lookup?_write_of_ne (create : Bool) (common others : List Segment) (v : Value)
    (h : step ≠ .member name) :
    lookup? (common ++ .member name :: others) (write create new (common ++ step :: rest) v)
      = lookup? (common ++ .member name :: others) v := by
  induction common generalizing v with
  | nil =>
      rw [List.nil_append, List.nil_append]
      -- The last step and one on the way write alike, so the rest of the path does not matter.
      have hwritten : ∀ create' written,
          lookup? (.member name :: others) (writeLast create' written step v)
            = lookup? (.member name :: others) v := by
        intro create' written
        rw [lookup?, child?_writeLast_of_ne create' h, lookup?]
      cases rest with
      | nil => exact hwritten create new
      | cons next rest =>
          cases hdescend : descend? create step v with
          | none => rw [write_cons_of_none create (List.cons_ne_nil next rest) hdescend]
          | some inner =>
              rw [write_cons create (List.cons_ne_nil next rest) hdescend]
              exact hwritten true _
  | cons segment common ih =>
      have hne : common ++ step :: rest ≠ [] := by simp
      rw [List.cons_append, List.cons_append]
      cases hdescend : descend? create segment v with
      | none => rw [write_cons_of_none create hne hdescend]
      | some inner =>
          rw [write_cons create hne hdescend, lookup?_cons (child?_writeLast hdescend), ih]
          rcases child?_of_descend? hdescend with hchild | ⟨-, rfl, hchild, -⟩
          · rw [lookup?_cons hchild]
          · -- Nothing was found in a member that is made only now, and nothing is in it.
            rw [lookup?_cons_of_none hchild]
            cases common <;> exact lookup?_empty _ _

/-! ## Objects

What is changed inside is of the kind it was. -/

/-- The value is an object. -/
def isObject (v : Value) : Bool := v.members?.isSome

theorem isObject_setChild : (setChild segment new v).isObject = v.isObject := by
  cases segment <;> cases v <;> rfl

theorem isObject_removeChild : (removeChild segment v).isObject = v.isObject := by
  cases segment <;> cases v <;> rfl

theorem isObject_insertItem : (insertItem new segment v).isObject = v.isObject := by
  cases segment <;> cases v <;> rfl

theorem isObject_writeLast (create : Bool) : (writeLast create new segment v).isObject = v.isObject := by
  cases segment <;> cases v
  case member.obj name members =>
    rw [writeLast]
    split <;> rfl
  case index.arr n items =>
    rw [writeLast]
    split
    · rfl
    · split <;> rfl
  all_goals rfl

theorem isObject_modifyAt (h : segments = [] → (f v).isObject = v.isObject) :
    (modifyAt f segments v).isObject = v.isObject := by
  cases segments with
  | nil => exact h rfl
  | cons segment rest =>
      rw [modifyAt]
      split
      · exact isObject_setChild
      · rfl

theorem isObject_atLast {f : Segment → Value → Value}
    (h : ∀ last, (f last v).isObject = v.isObject) : (atLast f segments v).isObject = v.isObject := by
  rw [atLast]
  split
  · next last _ => exact isObject_modifyAt fun _ => h last
  · rfl

theorem isObject_write (create : Bool) : (write create new segments v).isObject = v.isObject := by
  cases segments with
  | nil => rfl
  | cons segment rest =>
      by_cases hrest : rest = []
      · subst hrest
        exact isObject_writeLast create
      cases hdescend : descend? create segment v with
      | none => rw [write_cons_of_none create hrest hdescend]
      | some inner =>
          rw [write_cons create hrest hdescend]
          exact isObject_writeLast true

end Value

end DocStore
