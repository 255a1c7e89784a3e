import DocStore.Proofs.Outcome
import DocStore.Proofs.Value.Order
import DocStore.Query

/-!
# Sorted results

Main statement: `sorted_and_stable`.  Where no sort key gives a floating-point number, the results
come in the order of the sort list and results that tie in all keys stay in the order they came in.

What order that is, `Before` says without the comparison function: the first key in which two
results differ decides, by the order of values or against it.
-/

namespace DocStore.Query

open Value (FloatFree floatFree_cons viewCompare sortCompare_eq sortCompare_swap)

/-! ## The order of lists of keys -/

/-- Keys that come before others in the directions of a sort list. -/
inductive Before : List SortDirection → List Value → List Value → Prop
  | ascending {a b : Value} {directions : List SortDirection} {as bs : List Value} :
      a.sortCompare b = .lt → Before (.asc :: directions) (a :: as) (b :: bs)
  | descending {a b : Value} {directions : List SortDirection} {as bs : List Value} :
      a.sortCompare b = .gt → Before (.desc :: directions) (a :: as) (b :: bs)
  | later {a b : Value} {direction : SortDirection} {directions : List SortDirection}
      {as bs : List Value} :
      a.sortCompare b = .eq → Before directions as bs →
        Before (direction :: directions) (a :: as) (b :: bs)

/-- Keys that tie one by one. -/
def Tied (as bs : List Value) : Prop := List.Forall₂ (fun a b => a.sortCompare b = .eq) as bs

section Comparing

variable {a b : Value} {as bs cs : List Value} {direction : SortDirection}
  {directions : List SortDirection}

/-- The order of values in a direction. -/
def directed : SortDirection → Value → Value → Ordering
  | .asc => viewCompare
  | .desc => fun a b => viewCompare b a

instance : Std.TransCmp (directed direction) :=
  match direction with
  | .asc => inferInstanceAs (Std.TransCmp viewCompare)
  | .desc => inferInstanceAs (Std.TransCmp fun a b => viewCompare b a)

theorem directed_asc (ha : a.hasFloat = false) (hb : b.hasFloat = false) :
    directed .asc a b = a.sortCompare b := by
  rw [directed, sortCompare_eq ha hb]

theorem directed_desc (ha : a.hasFloat = false) (hb : b.hasFloat = false) :
    directed .desc a b = (a.sortCompare b).swap := by
  rw [directed, ← sortCompare_swap ha hb, sortCompare_eq hb ha]

theorem directed_of_tie (ha : a.hasFloat = false) (hb : b.hasFloat = false)
    (h : a.sortCompare b = .eq) : directed direction a b = .eq := by
  cases direction with
  | asc => rw [directed_asc ha hb, h]
  | desc => rw [directed_desc ha hb, h]; rfl

theorem compareKeys_cons (ha : a.hasFloat = false) (hb : b.hasFloat = false) :
    compareKeys (direction :: directions) (a :: as) (b :: bs)
      = (directed direction a b).then (compareKeys directions as bs) := by
  cases direction with
  | asc => rw [compareKeys, directed, sortCompare_eq ha hb]
  | desc => rw [compareKeys, directed, sortCompare_eq hb ha]

theorem compareKeys_swap (ha : FloatFree as) (hb : FloatFree bs) :
    compareKeys directions bs as = (compareKeys directions as bs).swap := by
  induction directions generalizing as bs with
  | nil => rfl
  | cons direction directions ih =>
      match as, bs with
      | [], [] | [], _ :: _ | _ :: _, [] => rfl
      | a :: as, b :: bs =>
          obtain ⟨ha, has⟩ := floatFree_cons.mp ha
          obtain ⟨hb, hbs⟩ := floatFree_cons.mp hb
          have hswap : directed direction b a = (directed direction a b).swap :=
            Std.OrientedCmp.eq_swap
          rw [compareKeys_cons ha hb, compareKeys_cons hb ha, ih has hbs, hswap, Ordering.swap_then]

/-- Only the keys in the middle have to be as many as the sort list names. -/
theorem isLE_compareKeys_trans (ha : FloatFree as) (hb : FloatFree bs) (hc : FloatFree cs)
    (hlength : bs.length = directions.length) (hab : (compareKeys directions as bs).isLE)
    (hbc : (compareKeys directions bs cs).isLE) : (compareKeys directions as cs).isLE := by
  induction directions generalizing as bs cs with
  | nil => rfl
  | cons direction directions ih =>
      match as, bs, cs with
      | [], _, _ => rfl
      | _ :: _, _, [] => rfl
      | _ :: _, [], _ :: _ => cases hlength
      | a :: as, b :: bs, c :: cs =>
          obtain ⟨ha, has⟩ := floatFree_cons.mp ha
          obtain ⟨hb, hbs⟩ := floatFree_cons.mp hb
          obtain ⟨hc, hcs⟩ := floatFree_cons.mp hc
          rw [compareKeys_cons ha hb, Ordering.isLE_then_iff_and] at hab
          rw [compareKeys_cons hb hc, Ordering.isLE_then_iff_and] at hbc
          rw [compareKeys_cons ha hc, Ordering.isLE_then_iff_and]
          refine ⟨Std.TransCmp.isLE_trans hab.1 hbc.1, ?_⟩
          obtain hlt | hrest := hab.2
          · exact .inl (Std.TransCmp.lt_of_lt_of_isLE hlt hbc.1)
          obtain hlt | hrest' := hbc.2
          · exact .inl (Std.TransCmp.lt_of_isLE_of_lt hab.1 hlt)
          · exact .inr (ih has hbs hcs (Nat.succ.inj hlength) hrest hrest')

theorem compareKeys_of_before (ha : FloatFree as) (hb : FloatFree bs)
    (h : Before directions as bs) : compareKeys directions as bs = .lt := by
  induction h with
  | ascending hlt =>
      obtain ⟨ha, -⟩ := floatFree_cons.mp ha
      obtain ⟨hb, -⟩ := floatFree_cons.mp hb
      rw [compareKeys_cons ha hb, directed_asc ha hb, hlt]
      rfl
  | descending hgt =>
      obtain ⟨ha, -⟩ := floatFree_cons.mp ha
      obtain ⟨hb, -⟩ := floatFree_cons.mp hb
      rw [compareKeys_cons ha hb, directed_desc ha hb, hgt]
      rfl
  | later htie _ ih =>
      obtain ⟨ha, has⟩ := floatFree_cons.mp ha
      obtain ⟨hb, hbs⟩ := floatFree_cons.mp hb
      rw [compareKeys_cons ha hb, directed_of_tie ha hb htie, ih has hbs]
      rfl

theorem compareKeys_of_tied (ha : FloatFree as) (hb : FloatFree bs) (h : Tied as bs) :
    compareKeys directions as bs = .eq := by
  induction h generalizing directions with
  | nil => cases directions <;> rfl
  | cons htie _ ih =>
      obtain ⟨ha, has⟩ := floatFree_cons.mp ha
      obtain ⟨hb, hbs⟩ := floatFree_cons.mp hb
      cases directions with
      | nil => rfl
      | cons direction directions =>
          rw [compareKeys_cons ha hb, directed_of_tie ha hb htie, ih has hbs]
          rfl

end Comparing

/-! ## The sort -/

section Sorting

variable {α : Type} {sort : List SortKey} {scope : α → Scope} {items sorted : List α}
  {keys : α → List Value}

/-- A merge sort needs an order of the items at hand only.  Those in order already stay so. -/
theorem mergeSort_of_order (le : α → α → Bool)
    (htrans : ∀ a ∈ items, ∀ b ∈ items, ∀ c ∈ items, le a b → le b c → le a c)
    (htotal : ∀ a ∈ items, ∀ b ∈ items, le a b || le b a) :
    (items.mergeSort le).Pairwise (fun a b => le a b) ∧
      ∀ chosen : List α, chosen.Sublist items → chosen.Pairwise (fun a b => le a b) →
        chosen.Sublist (items.mergeSort le) := by
  -- On the items at hand, as a type of their own, the order is one without conditions.
  let order (a b : {item // item ∈ items}) : Bool := le a.1 b.1
  have hmap : (items.attach.mergeSort order).map Subtype.val = items.mergeSort le := by
    have hle : ∀ a ∈ items.attach, ∀ b ∈ items.attach, order a b = le a.1 b.1 :=
      fun _ _ _ _ => rfl
    rw [List.map_mergeSort hle, List.attach_map_subtype_val]
  have htrans' : ∀ a b c, order a b → order b c → order a c :=
    fun a b c => htrans a.1 a.2 b.1 b.2 c.1 c.2
  have htotal' : ∀ a b, order a b || order b a := fun a b => htotal a.1 a.2 b.1 b.2
  rw [← hmap]
  constructor
  · exact List.pairwise_map.mpr (List.pairwise_mergeSort htrans' htotal' _)
  · intro chosen hsub hchosen
    rw [← List.attach_map_subtype_val items] at hsub
    obtain ⟨picked, hpicked, rfl⟩ := List.sublist_map_iff.mp hsub
    exact (List.sublist_mergeSort htrans' htotal' (List.pairwise_map.mp hchosen) hpicked).map _

/-- Items that have been given keys are still the same items. -/
theorem snd_of_mapM_key {β : Type} {f : α → Except DocError β} {items : List α}
    {keyed : List (β × α)}
    (h : (items.mapM fun item => do return (← f item, item)) = .ok keyed) :
    keyed.map Prod.snd = items := by
  induction items generalizing keyed with
  | nil =>
      cases h
      rfl
  | cons item rest ih =>
      rw [List.mapM_cons] at h
      obtain ⟨pair, hpair, h⟩ := Outcome.bind_eq_ok.mp h
      obtain ⟨others, hothers, h⟩ := Outcome.bind_eq_ok.mp h
      obtain ⟨key, -, hpair⟩ := Outcome.bind_eq_ok.mp hpair
      cases h
      cases hpair
      rw [List.map_cons, ih hothers]

theorem sortBy_perm (h : sortBy sort scope items = .ok sorted) : sorted.Perm items := by
  rw [sortBy] at h
  split at h
  · cases h
    exact .refl _
  · obtain ⟨keyed, hkeyed, h⟩ := Outcome.bind_eq_ok.mp h
    cases h
    exact snd_of_mapM_key hkeyed ▸ (List.mergeSort_perm keyed _).map Prod.snd

/-- Once the keys are known, sorting is a merge sort by them. -/
theorem sortBy_eq_mergeSort (h : ∀ item ∈ items, keysIn sort (scope item) = .ok (keys item)) :
    sortBy sort scope items = .ok (items.mergeSort fun x y =>
      (compareKeys (sort.map SortKey.direction) (keys x) (keys y)).isLE) := by
  rw [sortBy]
  split
  case isTrue hempty =>
    -- Without sort keys, all items tie.
    rw [List.isEmpty_iff.mp hempty]
    exact congrArg _ (List.mergeSort_of_pairwise (List.pairwise_of_forall fun _ _ => rfl)).symm
  case isFalse hempty =>
    let keyed (item : α) : List Value × α := (keys item, item)
    have hkeyed : (items.mapM fun item => do return (← keysIn sort (scope item), item))
        = .ok (items.map keyed) :=
      Outcome.mapM_eq_ok_map fun item hitem => by rw [h item hitem]; rfl
    have hsort : (items.mergeSort fun x y =>
        (compareKeys (sort.map SortKey.direction) (keys x) (keys y)).isLE).map keyed
          = (items.map keyed).mergeSort fun a b =>
            (compareKeys (sort.map SortKey.direction) a.1 b.1).isLE :=
      List.map_mergeSort fun _ _ _ _ => rfl
    rw [hkeyed]
    refine congrArg Except.ok ?_
    rw [← hsort, List.map_map]
    exact List.map_id _

/-- `sorted` holds the items in the order of the sort list, and those that tie in the order that
they have among `items`. -/
structure SortedBy (directions : List SortDirection) (keys : α → List Value)
    (items sorted : List α) : Prop where
  perm : sorted.Perm items
  ordered : sorted.Pairwise fun x y => ¬ Before directions (keys y) (keys x)
  stable : ∀ chosen : List α, chosen.Sublist items →
    chosen.Pairwise (fun x y => Tied (keys x) (keys y)) → chosen.Sublist sorted

theorem sortedBy_sortBy
    (h : ∀ item ∈ items, keysIn sort (scope item) = .ok (keys item) ∧ FloatFree (keys item)) :
    ∃ sorted, sortBy sort scope items = .ok sorted ∧
      SortedBy (sort.map SortKey.direction) keys items sorted := by
  have hfree : ∀ item ∈ items, FloatFree (keys item) := fun item hitem => (h item hitem).2
  have hlength : ∀ item ∈ items, (keys item).length = (sort.map SortKey.direction).length :=
    fun item hitem => by rw [Outcome.length_of_mapM (h item hitem).1, List.length_map]
  refine ⟨_, sortBy_eq_mergeSort fun item hitem => (h item hitem).1, ?_⟩
  obtain ⟨hordered, hstable⟩ := mergeSort_of_order
    (fun x y => (compareKeys (sort.map SortKey.direction) (keys x) (keys y)).isLE)
    (fun a ha b hb c hc =>
      isLE_compareKeys_trans (hfree a ha) (hfree b hb) (hfree c hc) (hlength b hb))
    (fun a ha b hb => by
      rw [compareKeys_swap (hfree a ha) (hfree b hb)]
      cases compareKeys (sort.map SortKey.direction) (keys a) (keys b) <;> rfl)
  refine ⟨List.mergeSort_perm _ _, ?_, ?_⟩
  · refine hordered.imp_of_mem fun {x y} hx hy hle hbefore => ?_
    have hx := hfree x (List.mem_mergeSort.mp hx)
    have hy := hfree y (List.mem_mergeSort.mp hy)
    rw [compareKeys_swap hy hx, compareKeys_of_before hy hx hbefore] at hle
    cases hle
  · intro chosen hsub htied
    refine hstable chosen hsub (htied.imp_of_mem fun {x y} hx hy htied => ?_)
    rw [compareKeys_of_tied (hfree x (hsub.mem hx)) (hfree y (hsub.mem hy)) htied]
    rfl

end Sorting

/-- On values without floating-point numbers the sort order is a total preorder, in which only values
of one text tie.  So whatever is sorted by keys of that kind, rows or groups, comes out in order, and
what ties stays as it was. -/
theorem sorted_and_stable :
    (∀ a b c : Value, a.hasFloat = false → b.hasFloat = false → c.hasFloat = false →
      b.sortCompare a = (a.sortCompare b).swap ∧
      ((a.sortCompare b).isLE → (b.sortCompare c).isLE → (a.sortCompare c).isLE) ∧
      (a.sortCompare b = .eq → a.text = b.text)) ∧
    ∀ (α : Type) (sort : List SortKey) (scope : α → Scope) (items : List α)
      (keys : α → List Value),
      (∀ item ∈ items, keysIn sort (scope item) = .ok (keys item) ∧ FloatFree (keys item)) →
      ∃ sorted, sortBy sort scope items = .ok sorted ∧
        SortedBy (sort.map SortKey.direction) keys items sorted := by
  constructor
  · intro a b c ha hb hc
    exact ⟨sortCompare_swap ha hb, Value.isLE_sortCompare_trans ha hb hc,
      Value.text_eq_of_sortCompare ha hb⟩
  · intro α sort scope items keys h
    exact sortedBy_sortBy h

/-- Rows with a value of each class under one name, two of them with the same. -/
def mixedRows : List Value :=
  [.obj [("n", .str "b")], .obj [("n", .int 3)], .obj [], .obj [("n", .arr [.int 3])],
    .obj [("n", .int 3), ("k", .bool true)], .obj [("n", .uint 9223372036854775808)]]

theorem sorted_and_stable_mixed :
    (Value.sortCompare (.arr [.int 3]) .null = (Value.sortCompare .null (.arr [.int 3])).swap) ∧
    ∃ sorted, sortBy [⟨.field ⟨[.member "n"]⟩, .desc⟩] Scope.row mixedRows = .ok sorted ∧
      SortedBy [.desc] (fun row => [Path.valueIn ⟨[.member "n"]⟩ row]) mixedRows sorted := by
  obtain ⟨horder, hsorted⟩ := sorted_and_stable
  refine ⟨(horder .null (.arr [.int 3]) (.int 3) rfl rfl rfl).1, ?_⟩
  refine hsorted Value [⟨.field ⟨[.member "n"]⟩, .desc⟩] Scope.row mixedRows
    (fun row => [Path.valueIn ⟨[.member "n"]⟩ row]) fun row hrow => ⟨rfl, ?_⟩
  have hfree : ∀ row ∈ mixedRows, (Path.valueIn ⟨[.member "n"]⟩ row).hasFloat = false := by
    simp only [mixedRows, List.forall_mem_cons]
    exact ⟨rfl, rfl, rfl, rfl, rfl, rfl, fun _ h => nomatch h⟩
  exact List.forall_mem_singleton.mpr (hfree row hrow)

end DocStore.Query
