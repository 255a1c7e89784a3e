import DocStore.Proofs.Query.Sorting
import DocStore.Proofs.Query.Window
import DocStore.Store.Write
import Mathlib.Data.List.Perm.Subperm

/-!
# The rows of an update or delete

A filter lets some of the rows through, sorting permutes them and the window cuts them.  So the rows
that an update or delete concerns are rows of the collection, none of them twice.
-/

namespace DocStore

namespace Store

variable {store : Store} {session : SessionId} {target : CollectionName} {o : Options}

theorem filterRows_sublist {filter : Option Expr} {rows passed : Rows}
    (h : filterRows filter rows = .ok passed) : passed.Sublist rows := by
  induction rows generalizing passed with
  | nil =>
      cases h
      exact .refl _
  | cons row rest ih =>
      rw [filterRows] at h
      obtain ⟨passes, -, h⟩ := Outcome.bind_eq_ok.mp h
      obtain ⟨others, hothers, h⟩ := Outcome.bind_eq_ok.mp h
      cases h
      split
      · exact (ih hothers).cons_cons row
      · exact (ih hothers).cons row

/-- The rows of a collection that is there. -/
theorem rows_eq_ok {rows : Rows} : store.rows target = .ok rows ↔ store.rows? target = some rows := by
  rw [Store.rows]
  cases store.rows? target <;> simp

/-! ## The rows that options select -/

/-- The rows that a filter lets through, sorted and cut to the window, whoever has locked them. -/
def selected (store : Store) (target : CollectionName) (o : Options) : Except DocError Rows := do
  let rows ← filterRows o.filter (← store.rows target)
  let sorted ← Query.sortBy o.sort (fun row : String × Document => .row (.obj row.2)) rows
  return Query.window o.limit o.offset sorted

/-- A write selects rows and then fails if another session has locked one of them. -/
theorem selectForWrite_eq :
    store.selectForWrite session target o
      = (do
          let rows ← store.selected target o
          store.checkFree session target (Assoc.keys rows)
          return rows) := by
  rw [selectForWrite, selected]
  simp only [bind_assoc, pure_bind]

/-- The rows that options select are some of those of the collection, in some order. -/
theorem subperm_of_selected {rows : Rows} (h : store.selected target o = .ok rows) :
    ∃ stored, store.rows? target = some stored ∧ rows.Subperm stored := by
  rw [selected] at h
  obtain ⟨stored, hstored, h⟩ := Outcome.bind_eq_ok.mp h
  obtain ⟨passed, hpassed, h⟩ := Outcome.bind_eq_ok.mp h
  obtain ⟨sorted, hsorted, h⟩ := Outcome.bind_eq_ok.mp h
  cases h
  refine ⟨stored, rows_eq_ok.mp hstored, ?_⟩
  have hwindow : (Query.window o.limit o.offset sorted).Subperm sorted :=
    (Query.window_sublist _ _ _).subperm
  exact (hwindow.trans (Query.sortBy_perm hsorted).subperm).trans
    (filterRows_sublist hpassed).subperm

theorem subperm_of_selectForWrite {rows : Rows}
    (h : store.selectForWrite session target o = .ok rows) :
    ∃ stored, store.rows? target = some stored ∧ rows.Subperm stored := by
  rw [selectForWrite_eq] at h
  obtain ⟨selected, hselected, h⟩ := Outcome.bind_eq_ok.mp h
  obtain ⟨done, -, h⟩ := Outcome.bind_eq_ok.mp h
  cases h
  exact subperm_of_selected hselected

/-- Of distinct rows, none is selected twice. -/
theorem nodup_keys_of_subperm {rows stored : Rows} (h : rows.Subperm stored)
    (hd : (Assoc.keys stored).Nodup) : (Assoc.keys rows).Nodup := by
  obtain ⟨kept, hperm, hkept⟩ := h
  exact (hperm.map Prod.fst).nodup_iff.mp (hd.sublist (hkept.map Prod.fst))

end Store

end DocStore
