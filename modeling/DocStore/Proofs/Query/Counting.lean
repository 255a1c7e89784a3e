import DocStore.Proofs.Query.Grouping
import Mathlib

/-!
# Counting the rows of groups

Main statement: `grouped_exactly`.  Groups part the rows, so what `count(*)` gives for each of them
adds up to the number of rows.
-/

namespace DocStore.Query

open Value (FloatFree)

variable {o : Options} {rows results : List Value} {stored : List Document} {shown all : Document}

/-! ## The column of a count -/

/-- The step from the columns shown so far to one more. -/
def showColumn (rows : List Value) (shown : Document) (column : Column) :
    Except DocError Document := do
  let value ← column.source.eval (.group rows (some shown))
  return Assoc.insert shown (columnKey column) value

theorem projectGroup_eq_foldlM {columns : List Column} (h : columns ≠ []) (rows : List Value) :
    projectGroup columns rows = columns.foldlM (showColumn rows) [] :=
  if_neg (by simpa using h)

/-- Columns of other names leave what is shown under a name. -/
theorem get?_of_foldlM {columns : List Column} {key : String}
    (hne : ∀ column ∈ columns, columnKey column ≠ key)
    (h : columns.foldlM (showColumn rows) shown = .ok all) :
    Assoc.get? all key = Assoc.get? shown key := by
  induction columns generalizing shown with
  | nil =>
      cases h
      rfl
  | cons column rest ih =>
      obtain ⟨hcolumn, hrest⟩ := List.forall_mem_cons.mp hne
      rw [List.foldlM_cons] at h
      obtain ⟨next, hnext, h⟩ := Outcome.bind_eq_ok.mp h
      obtain ⟨value, -, hnext⟩ := Outcome.bind_eq_ok.mp hnext
      cases hnext
      rw [ih hrest h, Assoc.get?_insert_of_ne _ _ (Ne.symm hcolumn)]

theorem eval_count {name : FunctionName} (h : name.name.toLower = "count") (rows : List Value)
    (aliases : Option Document) :
    (Expr.call name [.star]).eval (.group rows aliases) = .ok (.ofCount rows.length) := by
  have haggregate : name.isAggregate = true := by
    rw [FunctionName.isAggregate, h]
    rfl
  simp only [Expr.eval, haggregate, if_true, h]
  rfl

theorem get?_projectGroup_count {before after : List Column} {column : Column}
    {name : FunctionName} (hsource : column.source = .call name [.star])
    (hname : name.name.toLower = "count")
    (hlast : ∀ later ∈ after, columnKey later ≠ columnKey column)
    (h : projectGroup (before ++ column :: after) rows = .ok all) :
    Assoc.get? all (columnKey column) = some (.ofCount rows.length) := by
  rw [projectGroup_eq_foldlM (by simp), List.foldlM_append] at h
  obtain ⟨shown, -, h⟩ := Outcome.bind_eq_ok.mp h
  rw [List.foldlM_cons, showColumn, hsource, eval_count hname] at h
  rw [get?_of_foldlM hlast h, Assoc.get?_insert_self]

theorem toJson_ofCount {n : Nat} (h : n < UInt64.size) : (Value.ofCount n).toJson = .int n := by
  have hn : (UInt64.ofNat n).toNat = n := UInt64.toNat_ofNat_of_lt' h
  rw [Value.ofCount, Value.ofUInt64, hn]
  split
  · next hsmall =>
      rw [Value.toJson, Int64.toInt_ofNat_of_lt]
      rw [show Int64.maxValue.toInt = 2 ^ 63 - 1 from rfl] at hsmall
      omega
  · rw [Value.toJson, hn]

/-! ## Groups that are all shown -/

theorem qualified_of_no_having {groups : List (List Value)}
    {qualified : List (Option (Document × List Value))} (hnone : o.having = none)
    (h : groups.mapM (qualify o) = .ok qualified) :
    (qualified.filterMap id).map Prod.snd = groups ∧
      ∀ group ∈ qualified.filterMap id, projectGroup o.columns group.2 = .ok group.1 := by
  induction groups generalizing qualified with
  | nil =>
      cases h
      exact ⟨rfl, fun _ hgroup => nomatch hgroup⟩
  | cons rows rest ih =>
      rw [List.mapM_cons] at h
      obtain ⟨first, hfirst, h⟩ := Outcome.bind_eq_ok.mp h
      obtain ⟨others, hothers, h⟩ := Outcome.bind_eq_ok.mp h
      cases h
      rw [qualify, hnone] at hfirst
      obtain ⟨shown, hshown, hfirst⟩ := Outcome.bind_eq_ok.mp hfirst
      cases hfirst
      obtain ⟨hgroups, hall⟩ := ih hothers
      have hcons : (some (shown, rows) :: others).filterMap id
          = (shown, rows) :: others.filterMap id := rfl
      rw [hcons]
      exact ⟨by rw [List.map_cons, hgroups], List.forall_mem_cons.mpr ⟨hshown, hall⟩⟩

theorem counts_of_select {before after : List Column} {column : Column} {name : FunctionName}
    (hgroups : o.groupBy ≠ []) (hhaving : o.having = none) (hlimit : o.limit = none)
    (hoffset : o.offset = none) (hcolumns : o.columns = before ++ column :: after)
    (hsource : column.source = .call name [.star]) (hname : name.name.toLower = "count")
    (hlast : ∀ later ∈ after, columnKey later ≠ columnKey column)
    (h : select o stored rows = .ok results) :
    ∃ counts : List Nat, counts.sum = rows.length ∧
      results.map (fun result => result.get? (columnKey column))
        = counts.map fun n => some (.ofCount n) := by
  have haggregated : isAggregated o = true := by
    rw [isAggregated, List.isEmpty_eq_false_iff.mpr hgroups]
    rfl
  rw [select, hhaving, haggregated] at h
  obtain ⟨_, -, h⟩ := Outcome.bind_eq_ok.mp (show selectGroups o stored rows = .ok results from h)
  obtain ⟨_, -, h⟩ := Outcome.bind_eq_ok.mp h
  obtain ⟨groups, hrows, h⟩ := Outcome.bind_eq_ok.mp h
  obtain ⟨qualified, hqualified, h⟩ := Outcome.bind_eq_ok.mp h
  obtain ⟨sorted, hsorted, h⟩ := Outcome.bind_eq_ok.mp h
  rw [hlimit, hoffset] at h
  cases h
  obtain ⟨hall, hshown⟩ := qualified_of_no_having hhaving hqualified
  have hperm := sortBy_perm hsorted
  refine ⟨sorted.map fun group => group.2.length, ?_, ?_⟩
  · calc (sorted.map fun group => group.2.length).sum
      _ = ((qualified.filterMap id).map fun group => group.2.length).sum := (hperm.map _).sum_nat
      _ = (groups.map List.length).sum := by rw [← hall, List.map_map]; rfl
      _ = groups.flatten.length := List.length_flatten.symm
      _ = rows.length := (flatten_perm_of_groupRows hrows).length_eq
  · show ((window none none sorted).map _).map _ = _
    rw [show window none none sorted = sorted from rfl, List.map_map, List.map_map]
    refine List.map_congr_left fun group hgroup => ?_
    have hgroup := hshown group (hperm.mem_iff.mp hgroup)
    rw [hcolumns] at hgroup
    exact get?_projectGroup_count hsource hname hlast hgroup

/-- Where the grouping expressions give no floating-point number, groups are exact: each row is in
one of them, and rows are in one group if the values are the same JSON trees.  However rows are
grouped, the counts of all groups add up to the number of rows. -/
theorem grouped_exactly :
    (∀ (groupBy : List Expr) (rows : List Value) (keys : Value → List Value), groupBy ≠ [] →
      (∀ row ∈ rows, groupBy.mapM (fun e => e.eval (.row row)) = .ok (keys row) ∧
        FloatFree (keys row)) →
      ∃ places : List (List (Fin rows.length)),
        groupRows groupBy rows = .ok (places.map fun group => group.map rows.get) ∧
        (places.map fun group => group.map rows.get).flatten.Perm rows ∧
        GroupedAt (fun row => (keys row).map Value.toJson) rows places) ∧
    ∀ (o : Options) (stored : List Document) (rows results : List Value)
      (before after : List Column) (column : Column) (name : FunctionName),
      o.groupBy ≠ [] → o.having = none → o.limit = none → o.offset = none →
      o.columns = before ++ column :: after → column.source = .call name [.star] →
      name.name.toLower = "count" → (∀ later ∈ after, columnKey later ≠ columnKey column) →
      select o stored rows = .ok results →
      ∃ counts : List Nat, counts.sum = rows.length ∧
        results.map (fun result => result.get? (columnKey column))
          = counts.map (fun n => some (.ofCount n)) ∧
        (rows.length < UInt64.size → ∀ n ∈ counts, (Value.ofCount n).toJson = .int n) := by
  constructor
  · intro groupBy rows keys hne h
    have hgroups := groupRows_eq_ok hne fun row hrow => (h row hrow).1
    exact ⟨_, hgroups, flatten_perm_of_groupRows hgroups,
      groupedAt_of_floatFree fun row hrow => (h row hrow).2⟩
  · intro o stored rows results before after column name hgroups hhaving hlimit hoffset hcolumns
      hsource hname hlast h
    obtain ⟨counts, hsum, hcounts⟩ := counts_of_select hgroups hhaving hlimit hoffset hcolumns
      hsource hname hlast h
    refine ⟨counts, hsum, hcounts, fun hsize n hn => toJson_ofCount ?_⟩
    have hle : n ≤ counts.sum := List.le_sum_of_mem hn
    omega

/-- Rows with strings under one name that hold a quote and the character that ends a key. -/
def trickyRows : List Value :=
  [.obj [("k", .str "\x1f\"")], .obj [("k", .int 1)], .obj [("k", .str "\x1f"), ("z", .null)],
    .obj [("k", .str "\x1f\""), ("z", .bool true)], .obj []]

/-- Count the rows with each of these strings. -/
def trickyCount : Options :=
  { groupBy := [.field (.ofMember "k")]
    columns := [⟨.call ⟨none, "COUNT"⟩ [.star], some "n"⟩] }

theorem grouped_exactly_tricky :
    (∃ places : List (List (Fin trickyRows.length)),
      groupRows [.field (.ofMember "k")] trickyRows
        = .ok (places.map fun group => group.map trickyRows.get) ∧
      (places.map fun group => group.map trickyRows.get).flatten.Perm trickyRows ∧
      GroupedAt (fun row => [(Path.valueIn (.ofMember "k") row).toJson]) trickyRows places) ∧
    ∃ (results : List Value) (counts : List Nat), counts.sum = 5 ∧
      select trickyCount [[("k", .int 1)]] trickyRows = .ok results ∧
      results.map (fun result => result.get? "n") = counts.map fun n => some (.ofCount n) := by
  obtain ⟨hgroups, hcounts⟩ := grouped_exactly
  constructor
  · refine hgroups [.field (.ofMember "k")] trickyRows
      (fun row => [Path.valueIn (.ofMember "k") row]) (by simp) fun row hrow => ⟨rfl, ?_⟩
    have hfree : ∀ row ∈ trickyRows, (Path.valueIn (.ofMember "k") row).hasFloat = false := by
      simp only [trickyRows, List.forall_mem_cons]
      exact ⟨rfl, rfl, rfl, rfl, rfl, fun _ h => nomatch h⟩
    exact List.forall_mem_singleton.mpr (hfree row hrow)
  · obtain ⟨results, hresults, -⟩ := Outcome.exists_eq_ok
      (select trickyCount [[("k", .int 1)]] trickyRows) (fun _ => true) (by decide +kernel)
    obtain ⟨counts, hsum, hshown, -⟩ := hcounts trickyCount [[("k", .int 1)]] trickyRows results
      [] [] ⟨.call ⟨none, "COUNT"⟩ [.star], some "n"⟩ ⟨none, "COUNT"⟩ (by simp [trickyCount]) rfl
      rfl rfl rfl rfl (by decide +kernel) (fun _ h => nomatch h) hresults
    exact ⟨results, counts, hsum, hresults, hshown⟩

end DocStore.Query
