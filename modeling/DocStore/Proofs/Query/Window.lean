import DocStore.Proofs.Outcome
import DocStore.Query

/-!
# The window

Main statement: `window_slices_results`.  The window of a statement cuts a slice out of the results
that the statement has without one.  So pages of one size, read one after the other, put together give
the results again.

Rows are cut before they are shown as columns, and groups after.  In both places the window commutes
with what is done to each item: with a function (`window_map`), and with one that may fail but does not
on any of the items (`mapM_window`).
-/

namespace DocStore.Query

variable {α β : Type} {o : Options} {limit : Option UInt64} {offset : Option Int64}
  {stored : List Document} {rows results : List Value}

/-! ## Windows on lists -/

theorem window_sublist (limit : Option UInt64) (offset : Option Int64) (items : List α) :
    (window limit offset items).Sublist items := by
  unfold window
  cases limit with
  | none => exact List.drop_sublist _ _
  | some n => exact (List.take_sublist _ _).trans (List.drop_sublist _ _)

theorem window_map (f : β → α) (limit : Option UInt64) (offset : Option Int64) (items : List β) :
    window limit offset (items.map f) = (window limit offset items).map f := by
  unfold window
  cases limit with
  | none => exact List.map_drop.symm
  | some n =>
      dsimp only
      rw [← List.map_drop, ← List.map_take]

/-- What gives results for all items gives those in the window for the items in the window. -/
theorem mapM_window {f : α → Except DocError β} {items : List α} {results : List β}
    (h : items.mapM f = .ok results) (limit : Option UInt64) (offset : Option Int64) :
    (window limit offset items).mapM f = .ok (window limit offset results) := by
  obtain ⟨-, hshown⟩ := Outcome.split_of_mapM h ((offset.getD 0).toInt).toNat
  unfold window
  cases limit with
  | none => exact hshown
  | some n => exact (Outcome.split_of_mapM hshown n.toNat).1

theorem toNat_max_zero (n : Int) : (max n 0).toNat = n.toNat := by omega

theorem window_of_neg {first : Int64} (h : first < 0) (limit : Option UInt64) (items : List α) :
    window limit (some first) items = window limit (some 0) items := by
  have hneg : first.toInt < 0 := Int64.lt_iff_toInt_lt.mp h
  have hnone : first.toInt.toNat = (0 : Int64).toInt.toNat := by
    rw [Int64.toInt_zero]
    omega
  unfold window
  rw [Option.getD_some, Option.getD_some, hnone]

/-- Pages of one size are the front of a list. -/
theorem flatten_pages (items : List α) (size count : Nat) :
    ((List.range count).map fun page => (items.drop (page * size)).take size).flatten
      = items.take (count * size) := by
  induction count with
  | zero => simp
  | succ count ih =>
      rw [List.range_succ, List.map_append, List.flatten_append, ih, Nat.succ_mul, List.take_add]
      simp

/-! ## Windows on results -/

/-- The groups of rows that meet the condition, sorted but not cut. -/
def sortedGroups (o : Options) (stored : List Document) (rows : List Value) :
    Except DocError (List (Document × List Value)) := do
  let groupBy := o.groupBy.map (resolveAlias o.columns)
  groupBy.forM (checkColumn stored)
  checkHaving o
  let groups ← (← groupRows groupBy rows).mapM (qualify o)
  sortBy o.sort groupScope (groups.filterMap id)

theorem selectGroups_eq_sortedGroups (o : Options) (stored : List Document) (rows : List Value) :
    selectGroups o stored rows = (do
      let sorted ← sortedGroups o stored rows
      return (window o.limit o.offset sorted).map fun group => .obj group.1) := by
  simp only [selectGroups, sortedGroups, bind_assoc]

theorem selectRows_window (h : selectRows { o with limit := none, offset := none } rows = .ok results)
    (limit : Option UInt64) (offset : Option Int64) :
    selectRows { o with limit := limit, offset := offset } rows
      = .ok (window limit offset results) := by
  obtain ⟨sorted, hsorted, hshown⟩ := Outcome.bind_eq_ok.mp h
  exact Outcome.bind_eq_ok.mpr ⟨sorted, hsorted, mapM_window hshown limit offset⟩

theorem selectGroups_window
    (h : selectGroups { o with limit := none, offset := none } stored rows = .ok results)
    (limit : Option UInt64) (offset : Option Int64) :
    selectGroups { o with limit := limit, offset := offset } stored rows
      = .ok (window limit offset results) := by
  rw [selectGroups_eq_sortedGroups] at h ⊢
  obtain ⟨sorted, hsorted, hshown⟩ := Outcome.bind_eq_ok.mp h
  cases hshown
  exact Outcome.bind_eq_ok.mpr ⟨sorted, hsorted, congrArg Except.ok (window_map _ _ _ _).symm⟩

/-- The window does not decide whether rows are grouped. -/
theorem select_eq_ite (o : Options) (stored : List Document) (rows : List Value)
    (limit : Option UInt64) (offset : Option Int64) :
    select { o with limit := limit, offset := offset } stored rows
      = if o.having.isSome && o.groupBy.isEmpty then .error invalidGrouping
        else if isAggregated o then
          selectGroups { o with limit := limit, offset := offset } stored rows
        else selectRows { o with limit := limit, offset := offset } rows := rfl

theorem select_window
    (h : select { o with limit := none, offset := none } stored rows = .ok results)
    (limit : Option UInt64) (offset : Option Int64) :
    select { o with limit := limit, offset := offset } stored rows
      = .ok (window limit offset results) := by
  rw [select_eq_ite] at h ⊢
  split at h
  · cases h
  · next hvalid =>
      rw [if_neg hvalid]
      split at h
      · next hgroups =>
          rw [if_pos hgroups]
          exact selectGroups_window h limit offset
      · next hrows =>
          rw [if_neg hrows]
          exact selectRows_window h limit offset

/-- Windows that cut the same slice of every list give the same results, or the same error. -/
theorem select_congr_window {offset' : Option Int64}
    (h : ∀ {α : Type} (items : List α), window limit offset items = window limit offset' items) :
    select { o with limit := limit, offset := offset } stored rows
      = select { o with limit := limit, offset := offset' } stored rows := by
  rw [select_eq_ite, select_eq_ite, selectGroups_eq_sortedGroups, selectGroups_eq_sortedGroups]
  simp only [selectRows, h]
  rfl

/-! ## Pages -/

/-- The page of a number, counted from zero, of results in pages of one size. -/
def page (o : Options) (stored : List Document) (rows : List Value) (size : UInt64) (number : Nat) :
    Except DocError (List Value) :=
  select { o with limit := some size, offset := some (.ofNat (number * size.toNat)) } stored rows

/-- How many pages of one size hold so many results. -/
def pageCount (size total : Nat) : Nat := (total + size - 1) / size

theorem page_eq_ok (h : select { o with limit := none, offset := none } stored rows = .ok results)
    {size : UInt64} {number : Nat}
    (hfits : (number * size.toNat : Nat) ≤ Int64.maxValue.toInt) :
    page o stored rows size number
      = .ok ((results.drop (number * size.toNat)).take size.toNat) := by
  have hmax : Int64.maxValue.toInt = 2 ^ 63 - 1 := rfl
  have hfirst : (Int64.ofNat (number * size.toNat)).toInt = (number * size.toNat : Nat) :=
    Int64.toInt_ofNat_of_lt (by omega)
  rw [page, select_window h, window, Option.getD_some, hfirst, Int.toNat_natCast]

/-- The last page starts before the end of the results. -/
theorem mul_lt_of_lt_pageCount {size total number : Nat} (hsize : 0 < size)
    (h : number < pageCount size total) : number * size < total := by
  have hle : number.succ * size ≤ total + size - 1 :=
    Nat.le_trans (Nat.mul_le_mul_right size h) (Nat.div_mul_le_self _ _)
  rw [Nat.succ_mul] at hle
  omega

theorem le_pageCount_mul {size : Nat} (hsize : 0 < size) (total : Nat) :
    total ≤ pageCount size total * size := by
  have hdiv : (total + size - 1) / size * size + (total + size - 1) % size = total + size - 1 :=
    Nat.div_add_mod' _ _
  have hmod : (total + size - 1) % size < size := Nat.mod_lt _ hsize
  rw [pageCount]
  omega

/-- Whatever window a statement has, rows or groups, it shows a slice of the results without one: as
many as the offset says are left out, none if it is negative, and no more are kept than the limit
says.  Pages of one size, as far as offsets reach, are the front of the results without one, and all
pages are all results. -/
theorem window_slices_results
    (h : select { o with limit := none, offset := none } stored rows = .ok results) :
    (∀ (size : UInt64) (first : Int64),
      select { o with limit := some size, offset := some first } stored rows
        = .ok ((results.drop (max first.toInt 0).toNat).take size.toNat)) ∧
    (∀ first : Int64, select { o with limit := none, offset := some first } stored rows
      = .ok (results.drop (max first.toInt 0).toNat)) ∧
    (∀ size : UInt64, select { o with limit := some size, offset := none } stored rows
      = .ok (results.take size.toNat)) ∧
    (∀ (limit : Option UInt64) (first : Int64), first < 0 →
      select { o with limit := limit, offset := some first } stored rows
        = select { o with limit := limit, offset := some 0 } stored rows) ∧
    (∀ (size : UInt64) (count : Nat),
      (∀ number < count, (number * size.toNat : Nat) ≤ Int64.maxValue.toInt) →
      ∃ pages, (List.range count).mapM (page o stored rows size) = .ok pages ∧
        pages.flatten = results.take (count * size.toNat)) ∧
    (∀ size : UInt64, 0 < size → results.length ≤ Int64.maxValue.toInt + 1 →
      ∃ pages, (List.range (pageCount size.toNat results.length)).mapM (page o stored rows size)
          = .ok pages ∧ pages.flatten = results) := by
  have hpages : ∀ (size : UInt64) (count : Nat),
      (∀ number < count, (number * size.toNat : Nat) ≤ Int64.maxValue.toInt) →
      ∃ pages, (List.range count).mapM (page o stored rows size) = .ok pages ∧
        pages.flatten = results.take (count * size.toNat) := fun size count hfits =>
    ⟨_, Outcome.mapM_eq_ok_map fun number hnumber =>
      page_eq_ok h (hfits number (List.mem_range.mp hnumber)), flatten_pages results size.toNat count⟩
  refine ⟨fun size first => ?_, fun first => ?_, fun size => ?_, ?_, hpages, ?_⟩
  · rw [select_window h, window, Option.getD_some, toNat_max_zero]
  · rw [select_window h, window, Option.getD_some, toNat_max_zero]
  · exact select_window h _ _
  · exact fun limit first hneg => select_congr_window fun items => window_of_neg hneg limit items
  · intro size hsize hlength
    have hpositive : 0 < size.toNat := hsize
    have hfits : ∀ number < pageCount size.toNat results.length,
        (number * size.toNat : Nat) ≤ Int64.maxValue.toInt := fun number hnumber => by
      have hlt := mul_lt_of_lt_pageCount hpositive hnumber
      omega
    obtain ⟨pages, hpages, hflatten⟩ := hpages size _ hfits
    rw [List.take_of_length_le (le_pageCount_mul hpositive _)] at hflatten
    exact ⟨pages, hpages, hflatten⟩

/-- Numbers, the greatest first, under another name. -/
def descendingNumbers : Options :=
  { columns := [⟨.field (.ofMember "n"), some "number"⟩]
    sort := [⟨.field (.ofMember "n"), .desc⟩] }

theorem window_slices_results_descending :
    let row (n : Int64) : Value := .obj [("n", .int n)]
    let shown (n : Int64) : Value := .obj [("number", .int n)]
    let rows : List Value := [row 4, row 3, row 2]
    select descendingNumbers [] rows = .ok [shown 4, shown 3, shown 2] ∧
      select { descendingNumbers with limit := some 2, offset := some (-1) } [] rows
        = .ok [shown 4, shown 3] ∧
      ∃ pages, (List.range 2).mapM (page descendingNumbers [] rows 2) = .ok pages ∧
        pages.flatten = [shown 4, shown 3, shown 2] := by
  intro row shown rows
  -- The rows are in order already.
  have hsorted : [([Value.int 4], row 4), ([.int 3], row 3), ([.int 2], row 2)].mergeSort
        (fun a b => (compareKeys [.desc] a.1 b.1).isLE)
      = [([.int 4], row 4), ([.int 3], row 3), ([.int 2], row 2)] :=
    List.mergeSort_of_pairwise (by simp; decide)
  have hresults : select descendingNumbers [] rows = .ok [shown 4, shown 3, shown 2] :=
    congrArg (fun keyed => (keyed.map Prod.snd).mapM (project descendingNumbers.columns)) hsorted
  obtain ⟨hslice, -, -, -, -, hall⟩ := window_slices_results (o := descendingNumbers) hresults
  have hpages := hall 2 (by decide) (by decide)
  have hcount : pageCount (2 : UInt64).toNat 3 = 2 := by decide
  rw [List.length_cons, List.length_cons, List.length_singleton, hcount] at hpages
  exact ⟨hresults, hslice 2 (-1), hpages⟩

end DocStore.Query
