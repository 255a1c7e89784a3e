import DocStore.Proofs.Update.OnePlace

/-!
# What setting a value leaves behind

Main statement: `Update.set_or_unchanged_iff`, about an update that sets one value at a place.  The
document ends up with the value at that place or as it was, unless the path strands: it leaves the
document at a member that an object does not have, and goes on to an item of an array.  The objects
on the way are made before it is known that nothing can be written at its end, since an index leads
nowhere in a new object, and they stay.

What can be written into a new object decides it, so that comes first.
-/

namespace DocStore

namespace Value

variable {segment : Segment} {segments rest : List Segment} {v new inner : Value}

/-! ## Inside a new object -/

/-- Only a member can be written into an empty object. -/
theorem write_empty (h : ∀ name, segment ≠ .member name) :
    write true new (segment :: rest) (.obj []) = .obj [] := by
  cases segment with
  | member name => exact absurd rfl (h name)
  | _ => cases rest <;> rfl

/-- A member that is missing on the way is made, and what follows is written into it. -/
theorem child?_write_missing {name : String} {members : Document} (hrest : rest ≠ [])
    (h : Assoc.get? members name = none) :
    child? (.member name) (write true new (.member name :: rest) (.obj members))
      = some (write true new rest (.obj [])) := by
  have hdescend : descend? true (.member name) (.obj members) = some (.obj []) := by
    rw [descend?, child?, h]
    rfl
  rw [write_cons true hrest hdescend]
  exact child?_writeLast hdescend

/-- Members within members can be made. -/
theorem lookup?_write_members (hne : segments ≠ []) (h : ∀ s ∈ segments, ∃ name, s = .member name) :
    lookup? segments (write true new segments (.obj [])) = some new := by
  induction segments with
  | nil => exact absurd rfl hne
  | cons segment rest ih =>
      obtain ⟨⟨name, rfl⟩, hmembers⟩ := List.forall_mem_cons.mp h
      cases rest with
      | nil => exact lookup?_cons (Assoc.get?_insert_self [] name new)
      | cons next rest =>
          rw [lookup?_cons (child?_write_missing (List.cons_ne_nil next rest) rfl)]
          exact ih (List.cons_ne_nil next rest) hmembers

/-- An item of an array is never made, so nothing is written beyond it. -/
theorem lookup?_write_item {n : UInt32} (h : .index n ∈ segments) :
    lookup? segments (write true new segments (.obj [])) = none := by
  induction segments with
  | nil => cases h
  | cons segment rest ih =>
      cases segment with
      | member name =>
          have hrest : .index n ∈ rest := (List.mem_cons.mp h).resolve_left nofun
          rw [lookup?_cons (child?_write_missing (List.ne_nil_of_mem hrest) rfl)]
          exact ih hrest
      | _ =>
          rw [write_empty (by nofun)]
          exact lookup?_empty _ rest

/-! ## Stored, or stranded -/

/-- The value has been stored: the path leads to it, or, where its last step is an index beyond the
end of an array, it is the new last item of this array. -/
def StoredAt (new : Value) (segments : List Segment) (before after : Value) : Prop :=
  lookup? segments after = some new
    ∨ ∃ parents n items, segments = parents ++ [.index n]
        ∧ lookup? parents before = some (.arr items) ∧ items.length ≤ n.toNat
        ∧ lookup? parents after = some (.arr (items ++ [new]))

/-- The path leaves the value at a member that an object does not have, and goes on to an item of an
array. -/
def Strands (segments : List Segment) (v : Value) : Prop :=
  ∃ parents name members after n, segments = parents ++ .member name :: after
    ∧ lookup? parents v = some (.obj members) ∧ Assoc.get? members name = none
    ∧ .index n ∈ after

theorem StoredAt.cons {v' inner' : Value} (h : StoredAt new rest inner inner')
    (hbefore : child? segment v = some inner) (hafter : child? segment v' = some inner') :
    StoredAt new (segment :: rest) v v' := by
  rcases h with hfound | ⟨parents, n, items, rfl, hparents, hn, hlast⟩
  · exact .inl ((lookup?_cons hafter).trans hfound)
  · refine .inr ⟨segment :: parents, n, items, rfl, ?_, hn, ?_⟩
    · rw [lookup?_cons hbefore, hparents]
    · rw [lookup?_cons hafter, hlast]

theorem Strands.cons (h : Strands rest inner) (hchild : child? segment v = some inner) :
    Strands (segment :: rest) v := by
  obtain ⟨parents, name, members, after, n, rfl, hparents, hmissing, hn⟩ := h
  exact ⟨segment :: parents, name, members, after, n, rfl, (lookup?_cons hchild).trans hparents,
    hmissing, hn⟩

/-- The last step stores the value or finds no place for it. -/
theorem writeLast_eq_or_storedAt (hexact : segment.isExact = true) :
    writeLast true new segment v = v ∨ StoredAt new [segment] v (writeLast true new segment v) := by
  cases segment with
  | member name =>
      cases v with
      | obj members => exact .inr (.inl (lookup?_cons (Assoc.get?_insert_self members name new)))
      | _ => exact .inl rfl
  | index n =>
      cases v with
      | arr items =>
          by_cases hn : n.toNat < items.length
          · have hchild : child? (.index n) (.arr items) = some items[n.toNat] :=
              List.getElem?_eq_getElem hn
            exact .inr (.inl (lookup?_cons (child?_writeLast_of_child? true hchild)))
          · refine .inr (.inr ⟨[], n, items, rfl, rfl, Nat.le_of_not_lt hn, ?_⟩)
            rw [writeLast, if_neg hn, if_pos rfl]
            rfl
      | _ => exact .inl rfl
  | _ => cases hexact

theorem write_eq_or_storedAt (hne : segments ≠ []) (hexact : ∀ s ∈ segments, s.isExact = true)
    (h : ¬Strands segments v) :
    write true new segments v = v ∨ StoredAt new segments v (write true new segments v) := by
  induction segments generalizing v with
  | nil => exact absurd rfl hne
  | cons segment rest ih =>
      obtain ⟨hsegment, hrest⟩ := List.forall_mem_cons.mp hexact
      by_cases hnil : rest = []
      · subst hnil
        exact writeLast_eq_or_storedAt hsegment
      cases hdescend : descend? true segment v with
      | none => exact .inl (write_cons_of_none true hnil hdescend)
      | some inner =>
          rw [write_cons true hnil hdescend]
          have hwritten : child? segment (writeLast true (write true new rest inner) segment v)
              = some (write true new rest inner) := child?_writeLast hdescend
          rcases child?_of_descend? hdescend with hchild | ⟨-, rfl, hchild, name, members, rfl, rfl⟩
          · rcases ih hnil hrest fun hstrands => h (hstrands.cons hchild) with hsame | hstored
            · rw [hsame]
              exact .inl (writeLast_child? true hchild)
            · exact .inr (hstored.cons hchild hwritten)
          · -- From here on everything is made anew, which works for members alone.
            have hmembers : ∀ s ∈ rest, ∃ name, s = .member name := by
              intro s hs
              have hs' := hrest s hs
              cases s with
              | member other => exact ⟨other, rfl⟩
              | index n => exact absurd ⟨[], name, members, rest, n, rfl, rfl, hchild, hs⟩ h
              | _ => cases hs'
            exact .inr (.inl ((lookup?_cons hwritten).trans (lookup?_write_members hnil hmembers)))

/-- Where a path strands, a member has been made, and still there is nothing at its end. -/
theorem Strands.write (h : Strands segments v) (new : Value) :
    write true new segments v ≠ v ∧ ¬StoredAt new segments v (write true new segments v) := by
  obtain ⟨parents, name, members, after, n, rfl, hparents, hmissing, hn⟩ := h
  have hafter : after ≠ [] := List.ne_nil_of_mem hn
  have hbefore : ∀ more, lookup? (parents ++ .member name :: more) v = none := by
    intro more
    rw [lookup?_append, hparents]
    exact lookup?_cons_of_none hmissing
  have hwritten : ∀ more, lookup? (parents ++ .member name :: more)
      (Value.write true new (parents ++ .member name :: after) v)
        = lookup? more (Value.write true new after (.obj [])) := by
    intro more
    rw [lookup?_write_append true _ (List.cons_ne_nil _ after) hparents]
    exact lookup?_cons (child?_write_missing hafter hmissing)
  constructor
  · intro hsame
    have hmember := hwritten []
    rw [hsame, hbefore] at hmember
    cases hmember
  · rintro (hfound | ⟨parents', m, items, hpath, hparents', -, -⟩)
    · rw [hwritten, lookup?_write_item hn] at hfound
      cases hfound
    · -- The last step comes after the missing member, so no array is before it.
      obtain ⟨between, last, rfl⟩ := (List.eq_nil_or_concat after).resolve_left hafter
      have hinit : parents ++ .member name :: between = parents' := by
        have hdrop := congrArg List.dropLast hpath
        rwa [List.dropLast_concat, List.concat_eq_append, ← List.cons_append, ← List.append_assoc,
          List.dropLast_concat] at hdrop
      rw [← hinit, hbefore] at hparents'
      cases hparents'

end Value

/-! ## Updates -/

namespace Update

open Value

variable {doc : Document} {path : Path} {value : Expr} {new : Value}

/-- Setting a value gives a document that has it at its place or is the same as before, exactly if the
path does not strand. -/
theorem set_or_unchanged_iff (h : path.IsPlace) (hvalue : value.eval (.row (.obj doc)) = .ok new) :
    ∃ updated, apply [.set path value] doc = .ok updated
      ∧ (updated = doc ∨ StoredAt new path.segments (.obj doc) (.obj updated)
        ↔ ¬Strands path.segments (.obj doc)) := by
  have hlisted : (.set path value, write true new path.segments)
      ∈ placeOperations path value new := by simp [placeOperations]
  obtain ⟨updated, happly, hupdated⟩ := exists_apply_place h hvalue hlisted
  refine ⟨updated, happly, ?_⟩
  have hsame : updated = doc ↔ write true new path.segments (.obj doc) = .obj doc := by
    rw [← hupdated, Value.obj.injEq]
  rw [hsame, hupdated]
  constructor
  · intro hdone hstrands
    obtain ⟨hchanged, hnot⟩ := hstrands.write new
    exact hdone.elim hchanged hnot
  · intro hnot
    exact write_eq_or_storedAt h.ne_nil (List.all_eq_true.mp h.exact) hnot

/-- The member on the way to an item is made, and the item is not. -/
theorem set_strands :
    let doc : Document := [("_id", .str "1")]
    let path : Path := ⟨[.member "a", .index 0]⟩
    let updated : Document := [("_id", .str "1"), ("a", .obj [])]
    path.IsPlace
      ∧ apply [.set path (.literal (.int 5))] doc = .ok updated
      ∧ updated ≠ doc
      ∧ ¬StoredAt (.int 5) path.segments (.obj doc) (.obj updated) := by
  intro doc path updated
  have hwritten : write true (.int 5) path.segments (.obj doc) = .obj updated := rfl
  have hstrands : Strands path.segments (.obj doc) :=
    ⟨[], "a", doc, [.index 0], 0, rfl, rfl, rfl, List.mem_singleton.mpr rfl⟩
  obtain ⟨hchanged, hnot⟩ := hstrands.write (.int 5)
  rw [hwritten] at hchanged hnot
  exact ⟨⟨rfl, rfl, by decide⟩, rfl, fun heq => hchanged (congrArg Value.obj heq), hnot⟩

/-- An index beyond the end, below members that are there. -/
theorem set_or_unchanged_iff_appended :
    let doc : Document := [("_id", .str "1"), ("a", .obj [("b", .arr [.int 1])])]
    let path : Path := ⟨[.member "a", .member "b", .index 7]⟩
    let value : Expr := .field (.ofMember "_id")
    path.IsPlace
      ∧ value.eval (.row (.obj doc)) = .ok (.str "1")
      ∧ ∃ updated, apply [.set path value] doc = .ok updated
        ∧ (updated = doc ∨ StoredAt (.str "1") path.segments (.obj doc) (.obj updated)
          ↔ ¬Strands path.segments (.obj doc)) := by
  intro doc path value
  have hplace : path.IsPlace := ⟨rfl, rfl, by decide⟩
  have hvalue : value.eval (.row (.obj doc)) = .ok (.str "1") := rfl
  exact ⟨hplace, hvalue, set_or_unchanged_iff hplace hvalue⟩

end Update

end DocStore
