import DocStore.Eval.Field
import DocStore.Proofs.Update
import DocStore.Proofs.Update.Places

/-!
# Operations on one place

Most operations of an update write at one place inside the document.  Main statement:
`Update.acts_in_place`, about an update of one such operation.  It always gives a document; a change
reads back as the new value; unsetting a member leaves the others of its object in their order; and
whatever the operation is, nothing changes where another path has left its own for another member of
an object.

`placeOperations` lists these operations, each with the function that it applies to the document, so
that the laws of those functions carry over to updates in one step.
-/

namespace DocStore

/-- The path leads to one place inside a document, and not into its identifier. -/
structure Path.IsPlace (path : Path) : Prop where
  inside : path.isRoot = false
  exact : path.isExact = true
  free : path.segments.head? ≠ some (.member idField)

theorem Path.IsPlace.ne_nil {path : Path} (h : path.IsPlace) : path.segments ≠ [] := by
  intro hnil
  have hinside := h.inside
  rw [isRoot, hnil] at hinside
  cases hinside

/-! ## Reading a field

Where a path can be followed strictly, it addresses the value it leads to and no other. -/

theorem Segment.step_of_child? {segment : Segment} {v inner : Value}
    (h : Value.child? segment v = some inner) : segment.step v = [inner] := by
  obtain ⟨name, members, rfl, rfl, -⟩ | ⟨n, items, rfl, rfl, -⟩ := Value.child?_cases h
  · exact congrArg Option.toList h
  · exact congrArg Option.toList h

theorem Path.resolve_of_lookup? {path : Path} {root found : Value}
    (h : Value.lookup? path.segments root = some found) : path.resolve root = [found] := by
  rw [resolve]
  generalize path.segments = segments at h
  induction segments generalizing root with
  | nil =>
      cases h
      rfl
  | cons segment rest ih =>
      rw [Value.lookup?] at h
      obtain ⟨inner, hchild, hrest⟩ := Option.bind_eq_some_iff.mp h
      rw [List.foldl_cons, List.flatMap_singleton, Segment.step_of_child? hchild]
      exact ih hrest

theorem Path.valueIn_of_lookup? {path : Path} {root found : Value} (hexact : path.isExact = true)
    (h : Value.lookup? path.segments root = some found) : path.valueIn root = found := by
  rw [valueIn, resolve_of_lookup? h, if_pos hexact]
  rfl

namespace Update

open Value

variable {doc : Document} {path : Path} {value : Expr} {new root : Value}

/-! ## The operations -/

theorem writable_of_isPlace (h : path.IsPlace) : writable path = .ok path.segments := by
  rw [writable, if_neg h.free, if_pos h.exact]

/-- The operations on a place, with what each makes of the document when it writes `new`. -/
def placeOperations (path : Path) (value : Expr) (new : Value) : List (Operation × (Value → Value)) :=
  [(.set path value, write true new path.segments),
    (.change path value, write false new path.segments),
    (.unset path, atLast removeChild path.segments),
    (.arrayInsert path value, atLast (insertItem new) path.segments),
    (.arrayAppend path value, modifyAt (appendItem new) path.segments)]

theorem applyOne_placeOperations (h : path.IsPlace) (hvalue : value.eval (.row root) = .ok new) :
    ∀ entry ∈ placeOperations path value new, applyOne root entry.1 = .ok (entry.2 root) := by
  have hwritable := writable_of_isPlace h
  have hinside := h.inside
  simp [placeOperations, applyOne, hwritable, hvalue, hinside, bind, Except.bind, pure, Except.pure]

theorem keepsObject_placeOperations (h : path.IsPlace) :
    ∀ entry ∈ placeOperations path value new, entry.1.KeepsObject := by
  simp [placeOperations, Operation.KeepsObject, h.inside]

/-- An update of one operation on a place gives a document. -/
theorem exists_apply_place (h : path.IsPlace) (hvalue : value.eval (.row (.obj doc)) = .ok new)
    {operation : Operation} {f : Value → Value}
    (hlisted : (operation, f) ∈ placeOperations path value new) :
    ∃ updated, apply [operation] doc = .ok updated ∧ .obj updated = f (.obj doc) := by
  have happly : applyOne (.obj doc) operation = .ok (f (.obj doc)) :=
    applyOne_placeOperations h hvalue (operation, f) hlisted
  have hobj : (Value.obj doc).HasId (Assoc.get? doc idField) := ⟨doc, rfl, rfl⟩
  -- Only an object is taken over as the new document, and what is written inside leaves it one.
  obtain ⟨updated, hupdated, -⟩ :=
    hasId_applyOne hobj (keepsObject_placeOperations h (operation, f) hlisted) happly
  refine ⟨updated, ?_, hupdated.symm⟩
  rw [hupdated] at happly
  rw [apply, List.foldlM_cons, happly]
  rfl

/-! ## Elsewhere -/

/-- Where another path has left the place for another member of an object, nothing changes. -/
theorem lookup?_placeOperations {common rest : List Segment} {step : Segment} {name : String}
    (hpath : path.segments = common ++ step :: rest) (hstep : step ≠ .member name)
    (others : List Segment) (v : Value) :
    ∀ entry ∈ placeOperations path value new,
      lookup? (common ++ .member name :: others) (entry.2 v)
        = lookup? (common ++ .member name :: others) v := by
  intro entry hentry
  rw [placeOperations, hpath] at hentry
  simp only [List.mem_cons, List.not_mem_nil, or_false] at hentry
  rcases hentry with rfl | rfl | rfl | rfl | rfl
  · exact lookup?_write_of_ne true common others v hstep
  · exact lookup?_write_of_ne false common others v hstep
  · exact lookup?_atLast_of_ne common others v hstep fun w => child?_removeChild_of_ne hstep
  · exact lookup?_atLast_of_ne common others v hstep fun w => child?_insertItem
  · exact lookup?_modifyAt_of_ne common others v hstep

/-! ## The place itself -/

/-- What an update of one operation on a place does to a document, where the value it writes is
`new`. -/
structure ActsInPlace (doc : Document) (path : Path) (value : Expr) (new : Value) : Prop where
  /-- Where nothing is, nothing is changed. -/
  missing : lookup? path.segments (.obj doc) = none → apply [.change path value] doc = .ok doc
  /-- What is changed reads as the new value, followed strictly and as a field. -/
  changed : ∀ old, lookup? path.segments (.obj doc) = some old →
    ∃ updated, apply [.change path value] doc = .ok updated
      ∧ lookup? path.segments (.obj updated) = some new ∧ path.valueIn (.obj updated) = new
  /-- Nothing changes where another path has left the place for another member of an object. -/
  elsewhere : ∀ operation ∈ [.set path value, .change path value, .unset path,
      .arrayInsert path value, .arrayAppend path value],
    ∃ updated, apply [operation] doc = .ok updated
      ∧ ∀ common step rest name others, path.segments = common ++ step :: rest →
        step ≠ .member name →
        lookup? (common ++ .member name :: others) (.obj updated)
          = lookup? (common ++ .member name :: others) (.obj doc)
  /-- A member that is unset is gone, and the others of its object stand as they stood. -/
  unset : ∀ parents name members, path.segments = parents ++ [.member name] →
    lookup? parents (.obj doc) = some (.obj members) →
    ∃ updated, apply [.unset path] doc = .ok updated
      ∧ lookup? path.segments (.obj updated) = none
      ∧ lookup? parents (.obj updated)
        = some (.obj (members.filter fun member => member.1 ≠ name))

theorem acts_in_place (h : path.IsPlace) (hvalue : value.eval (.row (.obj doc)) = .ok new) :
    ActsInPlace doc path value new := by
  have hchange : (.change path value, write false new path.segments)
      ∈ placeOperations path value new := by simp [placeOperations]
  have hunset : (.unset path, atLast removeChild path.segments)
      ∈ placeOperations path value new := by simp [placeOperations]
  constructor
  case missing =>
    intro hnone
    obtain ⟨updated, happly, hupdated⟩ := exists_apply_place h hvalue hchange
    rw [write_of_lookup?_none hnone] at hupdated
    cases hupdated
    exact happly
  case changed =>
    intro old hold
    obtain ⟨updated, happly, hupdated⟩ := exists_apply_place h hvalue hchange
    have hfound : lookup? path.segments (.obj updated) = some new := by
      rw [hupdated]
      exact lookup?_write_of_lookup? false h.ne_nil hold
    exact ⟨updated, happly, hfound, Path.valueIn_of_lookup? h.exact hfound⟩
  case elsewhere =>
    intro operation hoperation
    have hmapped : operation ∈ (placeOperations path value new).map Prod.fst := hoperation
    obtain ⟨⟨operation, f⟩, hlisted, rfl⟩ := List.mem_map.mp hmapped
    obtain ⟨updated, happly, hupdated⟩ := exists_apply_place h hvalue hlisted
    refine ⟨updated, happly, ?_⟩
    intro common step rest name others hpath hstep
    rw [hupdated]
    exact lookup?_placeOperations hpath hstep others (.obj doc) (operation, f) hlisted
  case unset =>
    intro parents name members hpath hparents
    obtain ⟨updated, happly, hupdated⟩ := exists_apply_place h hvalue hunset
    rw [hpath, atLast_concat] at hupdated
    have hfound : ∀ after, lookup? (parents ++ after) (.obj updated)
        = lookup? after (.obj (Assoc.erase members name)) := by
      intro after
      rw [hupdated, lookup?_modifyAt_append, hparents]
      rfl
    refine ⟨updated, happly, ?_, ?_⟩
    · rw [hpath, hfound]
      exact lookup?_cons_of_none (Assoc.get?_erase_self members name)
    · have hobject := hfound []
      rw [List.append_nil] at hobject
      rw [hobject, lookup?, Assoc.erase]
      simp only [decide_not]

/-- A member of an object inside an array, written with the value of another field. -/
theorem acts_in_place_nested :
    let doc : Document :=
      [("_id", .str "1"), ("a", .arr [.obj [("b", .int 1), ("c", .int 2)]]), ("d", .int 3)]
    let path : Path := ⟨[.member "a", .index 0, .member "b"]⟩
    let value : Expr := .field (.ofMember "d")
    path.IsPlace
      ∧ value.eval (.row (.obj doc)) = .ok (.int 3)
      ∧ ActsInPlace doc path value (.int 3) := by
  intro doc path value
  have hplace : path.IsPlace := ⟨rfl, rfl, by decide⟩
  have hvalue : value.eval (.row (.obj doc)) = .ok (.int 3) := rfl
  exact ⟨hplace, hvalue, acts_in_place hplace hvalue⟩

end Update

end DocStore
