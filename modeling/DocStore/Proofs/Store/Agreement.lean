import DocStore.Proofs.Store.Inserting
import DocStore.Proofs.Store.Unwinding

/-!
# Reads and writes select the same rows

A read computes its results from values, an update or deletion from rows with their keys, so the two
sort and cut different lists.  Main statement: `writes_follow_reads`.  Under the same options, a
deletion removes and an update rewrites in place exactly the rows that a read gives, and a deletion
fails with the error of the read.

What both come down to is `Store.selected`.  Sorting and cutting look at items through their scopes
alone (`sortBy_map`), so it makes no difference whether keys are carried along.
-/

namespace DocStore

/-! ## Sorting and cutting what rows are mapped to -/

namespace Query

variable {α β : Type}

/-- Items are paired with their keys once all keys are known. -/
theorem mapM_keyed {κ : Type} (key : α → Except DocError κ) (items : List α) :
    (items.mapM fun item => do return (← key item, item))
      = (items.mapM key).map fun keys => keys.zip items := by
  induction items with
  | nil => rfl
  | cons item rest ih =>
      rw [List.mapM_cons, List.mapM_cons, ih]
      cases key item with
      | error e => rfl
      | ok k => cases rest.mapM key <;> rfl

/-- The order of items is that of what they are mapped to, sorted in the same scopes. -/
theorem sortBy_map (f : β → α) (sort : List SortKey) (scope : α → Scope) (items : List β) :
    sortBy sort scope (items.map f)
      = (sortBy sort (fun item => scope (f item)) items).map (List.map f) := by
  unfold sortBy
  split
  · rfl
  · rw [mapM_keyed, mapM_keyed, List.mapM_map]
    show ((items.mapM fun item => keysIn sort (scope (f item))).map _ >>= _)
      = ((items.mapM fun item => keysIn sort (scope (f item))).map _ >>= _).map _
    cases items.mapM fun item => keysIn sort (scope (f item)) with
    | error e => rfl
    | ok keys =>
        -- The comparison reads the keys alone, and those are the same on both sides.
        refine congrArg Except.ok ?_
        dsimp only
        rw [List.zip_map_right, ← List.map_mergeSort (f := Prod.map id f), List.map_map,
          List.map_map]
        · rfl
        · exact fun _ _ _ _ => rfl

/-- Without columns, rows are shown as they are. -/
theorem mapM_project_nil (rows : List Value) : rows.mapM (project []) = .ok rows := by
  induction rows with
  | nil => rfl
  | cons row rest ih =>
      rw [List.mapM_cons, ih]
      rfl

end Query

/-! ## What operations change -/

/-- The new document of one that operations change.  They leave it alone if they fail, or if they end
in a document that equals it. -/
def Update.changed? (operations : List Operation) (doc : Document) : Option Document :=
  (apply operations doc).toOption.filter fun updated => !(Value.obj updated == Value.obj doc)

theorem Update.changed?_of_apply {operations : List Operation} {doc updated : Document}
    (h : apply operations doc = .ok updated) :
    changed? operations doc
      = if Value.obj updated == Value.obj doc then none else some updated := by
  rw [changed?, h]
  cases heq : Value.obj updated == Value.obj doc <;> simp [Except.toOption, Option.filter, heq]

namespace Store

variable {store : Store} {session : SessionId} {target : CollectionName} {o : Options}

/-! ## Reading -/

/-- The documents of rows, as a read gives them. -/
def documentsOf (rows : Rows) : List Value := rows.map fun row => .obj row.2

theorem selectRows_eq (hcolumns : o.columns = []) (rows : Rows) :
    Query.selectRows o (documentsOf rows)
      = (Query.sortBy o.sort (fun row : String × Document => .row (.obj row.2)) rows).map
          fun sorted => documentsOf (Query.window o.limit o.offset sorted) := by
  rw [Query.selectRows, documentsOf, Query.sortBy_map, hcolumns]
  cases Query.sortBy o.sort (fun row : String × Document => .row (.obj row.2)) rows with
  | error e => rfl
  | ok sorted =>
      show List.mapM _ _ = _
      rw [Query.mapM_project_nil, Query.window_map]
      rfl

/-- A read without columns and groups gives the documents of the selected rows. -/
theorem execute_find_eq (hcolumns : o.columns = []) (hgroups : o.groupBy = [])
    (hhaving : o.having = none) :
    (store.execute session (.find target o none)).1
      = (store.selected target o).map fun rows => .documents (documentsOf rows) := by
  have hselect : ∀ stored rows, Query.select o stored rows = Query.selectRows o rows := by
    intro stored rows
    simp [Query.select, Query.isAggregated, hcolumns, hgroups, hhaving]
  have hmatched : store.matchedRows session target o none
      = (store.rows target >>= fun stored => filterRows o.filter stored) := by
    rw [matchedRows]
    simp
  rw [execute, find, hmatched, selected]
  cases hrows : store.rows target with
  | error e => rfl
  | ok stored =>
      simp only [bind, Except.bind]
      cases filterRows o.filter stored with
      | error e => rfl
      | ok filtered =>
          simp only [results, hrows, hselect]
          show (Query.selectRows o (documentsOf filtered) >>= _) = _
          rw [selectRows_eq hcolumns]
          cases Query.sortBy o.sort (fun row : String × Document => .row (.obj row.2)) filtered <;> rfl

/-! ## Writing

A write selects what a read selects, and then needs the rows to be free of the locks of others. -/

theorem selectForWrite_of_error {e : DocError} (h : store.selected target o = .error e) :
    store.selectForWrite session target o = .error e := by
  rw [selectForWrite_eq, h]
  rfl

theorem selectForWrite_of_free {rows : Rows} (h : store.selected target o = .ok rows)
    (hfree : ∀ row ∈ rows, ∀ holder ∈ store.locks.holders ⟨target, row.1⟩, holder.1 = session) :
    store.selectForWrite session target o = .ok rows := by
  have hchecked : store.checkFree session target (Assoc.keys rows) = .ok () := by
    refine checkFree_eq_ok_iff.mpr fun id hid => ?_
    obtain ⟨row, hrow, rfl⟩ := List.mem_map.mp hid
    exact hfree row hrow
  rw [selectForWrite_eq, h]
  show (store.checkFree session target (Assoc.keys rows) >>= fun _ => _) = _
  rw [hchecked]
  rfl

theorem selected_of_selectForWrite {rows : Rows}
    (h : store.selectForWrite session target o = .ok rows) : store.selected target o = .ok rows := by
  rw [selectForWrite_eq] at h
  obtain ⟨selected, hselected, h⟩ := Outcome.bind_eq_ok.mp h
  obtain ⟨done, -, h⟩ := Outcome.bind_eq_ok.mp h
  cases h
  exact hselected

theorem rows?_writeAll_of_ne {writes : List RowWrite} {other : CollectionName}
    (h : ∀ w ∈ writes, other ≠ w.row.collection) :
    (store.writeAll session writes).rows? other = store.rows? other := by
  induction writes generalizing store with
  | nil => rfl
  | cons w rest ih =>
      rw [writeAll_cons, ih fun w' hw' => h w' (List.mem_cons_of_mem _ hw'), rows?_write,
        if_neg (h w List.mem_cons_self)]

/-! ### Deleting -/

/-- Removing rows leaves those of the other keys, in their order. -/
theorem rows?_removing {stored : Rows} (hstored : store.rows? target = some stored) (rows : Rows) :
    (store.writeAll session (removing target rows)).rows? target
      = some (stored.filter fun row => row.1 ∉ Assoc.keys rows) := by
  induction rows generalizing store stored with
  | nil => simpa [removing, writeAll, Assoc.keys] using hstored
  | cons row rest ih =>
      have hnext : (store.write session ⟨⟨target, row.1⟩, none⟩).rows? target
          = some (Assoc.erase stored row.1) := rows?_write_self hstored
      refine (ih hnext).trans (congrArg some ?_)
      rw [Assoc.erase, List.filter_filter]
      refine List.filter_congr fun entry _ => ?_
      have hkeys : Assoc.keys (row :: rest) = row.1 :: Assoc.keys rest := rfl
      by_cases heq : entry.1 = row.1 <;> simp [hkeys, heq]

theorem execute_delete_eq {rows : Rows}
    (h : store.selectForWrite session target o = .ok rows) :
    store.execute session (.delete target o)
      = (.ok (affected rows.length), store.writeAll session (removing target rows)) := by
  rw [execute, delete_eq, h, ← removeAll_eq_writeAll]
  rfl

theorem selected_of_execute_delete {response : Response}
    (h : (store.execute session (.delete target o)).1 = .ok response) :
    ∃ rows, store.selectForWrite session target o = .ok rows ∧ response = affected rows.length := by
  cases hselected : store.selectForWrite session target o with
  | error e =>
      rw [execute, delete_eq, hselected] at h
      cases h
  | ok rows =>
      rw [execute_delete_eq hselected] at h
      exact ⟨rows, rfl, (Except.ok.inj h).symm⟩

theorem execute_delete_of_error {e : DocError} (h : store.selected target o = .error e) :
    (store.execute session (.delete target o)).1 = .error e := by
  rw [execute, delete_eq, selectForWrite_of_error h]
  rfl

theorem rows?_execute_delete {rows stored : Rows}
    (h : store.selectForWrite session target o = .ok rows)
    (hstored : store.rows? target = some stored) :
    (store.execute session (.delete target o)).2.rows? target
      = some (stored.filter fun row => row.1 ∉ Assoc.keys rows) := by
  rw [execute_delete_eq h]
  exact rows?_removing hstored rows

theorem rows?_execute_delete_of_ne {rows : Rows} {other : CollectionName}
    (h : store.selectForWrite session target o = .ok rows) (hne : other ≠ target) :
    (store.execute session (.delete target o)).2.rows? other = store.rows? other := by
  rw [execute_delete_eq h]
  exact rows?_writeAll_of_ne (List.forall_mem_map.mpr fun _ _ => hne)

/-! ### Updating -/

/-- Storing documents under keys that are there replaces their documents, each in its place. -/
theorem rows?_storing {stored rows : Rows} (hstored : store.rows? target = some stored)
    (hd : (Assoc.keys stored).Nodup) (hrows : (Assoc.keys rows).Nodup)
    (hsub : ∀ key ∈ Assoc.keys rows, key ∈ Assoc.keys stored) :
    (store.writeAll session (storing target rows)).rows? target
      = some (stored.map fun row => (row.1, (Assoc.get? rows row.1).getD row.2)) := by
  induction rows generalizing store stored with
  | nil =>
      refine hstored.trans (congrArg some ?_)
      simp [Assoc.get?]
  | cons row rest ih =>
      obtain ⟨key, doc⟩ := row
      obtain ⟨hkey, hrest⟩ := List.nodup_cons.mp hrows
      have hnext : (store.write session ⟨⟨target, key⟩, some doc⟩).rows? target
          = some (Assoc.insert stored key doc) := rows?_write_self hstored
      have hkeys : Assoc.keys (Assoc.insert stored key doc) = Assoc.keys stored := by
        rw [Assoc.keys_insert, if_pos (hsub key List.mem_cons_self)]
      have hlater : ∀ k ∈ Assoc.keys rest, k ∈ Assoc.keys (Assoc.insert stored key doc) := by
        intro k hk
        rw [hkeys]
        exact hsub k (List.mem_cons_of_mem _ hk)
      refine (ih hnext (Assoc.nodup_keys_insert key doc hd) hrest hlater).trans (congrArg some ?_)
      rw [Assoc.insert_eq_map doc hd (hsub key List.mem_cons_self), List.map_map]
      refine List.map_congr_left fun row _ => ?_
      by_cases heq : row.1 = key
      · have hnone : Assoc.get? rest key = none := Assoc.get?_eq_none_iff.mpr hkey
        simp [heq, hnone, Assoc.get?]
      · simp [heq, Ne.symm heq, Assoc.get?]

/-- An update stores the documents that its operations change, and needs them to succeed on every
selected document. -/
theorem changedRows_eq_ok_iff {operations : List Operation} {rows changed : Rows} :
    changedRows operations rows = .ok changed
      ↔ (∀ row ∈ rows, ∃ updated, Update.apply operations row.2 = .ok updated)
        ∧ changed = Assoc.filterMap (Update.changed? operations) rows := by
  induction rows generalizing changed with
  | nil => simp [changedRows, Assoc.filterMap, eq_comm]
  | cons row rest ih =>
      obtain ⟨id, doc⟩ := row
      have hcons : ∀ {updated}, Update.apply operations doc = .ok updated →
          Assoc.filterMap (Update.changed? operations) ((id, doc) :: rest)
            = if Value.obj updated == Value.obj doc then
                Assoc.filterMap (Update.changed? operations) rest
              else (id, updated) :: Assoc.filterMap (Update.changed? operations) rest := by
        intro updated hupdated
        rw [Assoc.filterMap_cons, Update.changed?_of_apply hupdated]
        cases Value.obj updated == Value.obj doc <;> rfl
      constructor
      · intro h
        rw [changedRows] at h
        obtain ⟨updated, hupdated, h⟩ := Outcome.bind_eq_ok.mp h
        obtain ⟨others, hothers, h⟩ := Outcome.bind_eq_ok.mp h
        obtain ⟨happly, rfl⟩ := ih.mp hothers
        refine ⟨List.forall_mem_cons.mpr ⟨⟨updated, hupdated⟩, happly⟩, ?_⟩
        rw [hcons hupdated]
        exact (Except.ok.inj h).symm
      · rintro ⟨happly, rfl⟩
        obtain ⟨⟨updated, hupdated⟩, hrest⟩ := List.forall_mem_cons.mp happly
        rw [changedRows, hupdated, hcons hupdated]
        show (changedRows operations rest >>= fun _ => _) = _
        rw [ih.mpr ⟨hrest, rfl⟩]
        rfl

theorem updatedRows_eq_ok_iff {operations : List Operation} {rows changed : Rows}
    (h : store.selectForWrite session target o = .ok rows) :
    store.updatedRows session target o operations = .ok changed
      ↔ operations ≠ []
        ∧ (∀ row ∈ rows, ∃ updated, Update.apply operations row.2 = .ok updated)
        ∧ changed = Assoc.filterMap (Update.changed? operations) rows := by
  rw [← changedRows_eq_ok_iff, updatedRows, h]
  cases operations with
  | nil => simp [throw, throwThe, MonadExceptOf.throw, bind, Except.bind]
  | cons op rest =>
      rw [and_iff_right (List.cons_ne_nil op rest)]
      rfl

/-- What storing the changed documents of selected rows makes of a collection. -/
theorem rows?_storing_changed (operations : List Operation) {stored rows : Rows}
    (hstored : store.rows? target = some stored) (hd : (Assoc.keys stored).Nodup)
    (hsub : rows.Subperm stored) :
    (store.writeAll session (storing target
        (Assoc.filterMap (Update.changed? operations) rows))).rows? target
      = some (stored.map fun row =>
          if row.1 ∈ Assoc.keys rows then (row.1, (Update.changed? operations row.2).getD row.2)
          else row) := by
  have hrows := nodup_keys_of_subperm hsub hd
  have hkeys := Assoc.keys_filterMap_sublist (Update.changed? operations) rows
  rw [rows?_storing hstored hd (hrows.sublist hkeys) fun key hkey =>
    List.map_subset Prod.fst hsub.subset (hkeys.subset hkey)]
  refine congrArg some (List.map_congr_left fun row hrow => ?_)
  rw [Assoc.get?_filterMap _ hrows]
  split
  · next hmem =>
      -- Keys are distinct, so the selected row of this key is this row.
      obtain ⟨⟨key, doc⟩, hselected, rfl⟩ := List.mem_map.mp hmem
      have hdoc := Assoc.get?_of_mem hd (hsub.subset hselected)
      rw [Assoc.get?_of_mem hd hrow] at hdoc
      rw [Assoc.get?_of_mem hrows hselected, Option.bind_some, Option.some.inj hdoc]
  · next hnot => rw [Assoc.get?_eq_none_iff.mpr hnot, Option.bind_none, Option.getD_none]

/-- An update that succeeds rewrites in place the selected documents that its operations change. -/
theorem execute_update_iff {operations : List Operation} {rows : Rows}
    (h : store.selectForWrite session target o = .ok rows) (response : Response) :
    (store.execute session (.update target o operations)).1 = .ok response
      ↔ operations ≠ []
        ∧ (∀ row ∈ rows, ∃ updated, Update.apply operations row.2 = .ok updated)
        ∧ response = affected (rows.countP fun row => (Update.changed? operations row.2).isSome) := by
  rw [execute, update_eq]
  constructor
  · intro hok
    cases hchanged : store.updatedRows session target o operations with
    | error e =>
        rw [hchanged] at hok
        cases hok
    | ok changed =>
        obtain ⟨hne, happly, rfl⟩ := (updatedRows_eq_ok_iff h).mp hchanged
        rw [hchanged] at hok
        refine ⟨hne, happly, ?_⟩
        rw [← Assoc.length_filterMap]
        exact (Except.ok.inj hok).symm
  · rintro ⟨hne, happly, rfl⟩
    rw [(updatedRows_eq_ok_iff h).mpr ⟨hne, happly, rfl⟩, ← Assoc.length_filterMap]
    rfl

theorem selected_of_execute_update {operations : List Operation} {response : Response}
    (h : (store.execute session (.update target o operations)).1 = .ok response) :
    ∃ rows, store.selectForWrite session target o = .ok rows := by
  cases hselected : store.selectForWrite session target o with
  | error e =>
      have hupdated : ∃ e, store.updatedRows session target o operations = .error e := by
        rw [updatedRows, hselected]
        cases operations <;> exact ⟨_, rfl⟩
      obtain ⟨e, he⟩ := hupdated
      rw [execute, update_eq, he] at h
      cases h
  | ok rows => exact ⟨rows, rfl⟩

theorem execute_update_ok {operations : List Operation} {rows : Rows}
    (h : store.selectForWrite session target o = .ok rows) {response : Response}
    (hok : (store.execute session (.update target o operations)).1 = .ok response) :
    (store.execute session (.update target o operations)).2
      = store.writeAll session
          (storing target (Assoc.filterMap (Update.changed? operations) rows)) := by
  obtain ⟨hne, happly, -⟩ := (execute_update_iff h response).mp hok
  rw [execute_update, writesOf, (updatedRows_eq_ok_iff h).mpr ⟨hne, happly, rfl⟩]
  rfl

theorem rows?_execute_update_of_ne {operations : List Operation} {rows : Rows}
    {other : CollectionName} (h : store.selectForWrite session target o = .ok rows)
    {response : Response}
    (hok : (store.execute session (.update target o operations)).1 = .ok response)
    (hne : other ≠ target) :
    (store.execute session (.update target o operations)).2.rows? other = store.rows? other := by
  rw [execute_update_ok h hok]
  exact rows?_writeAll_of_ne (List.forall_mem_map.mpr fun _ _ => hne)

/-! ## The main statement -/

/-- In every reachable store, and under options that only select rows, none of which another session
has locked: a deletion succeeds exactly if a read gives documents, and fails with its error if not.
The deletion removes the rows of these documents, and no others, and answers with their number.  An
update needs its operations to succeed on each of these documents; it rewrites in place those that
they change, answers with their number and leaves all other rows alone. -/
theorem writes_follow_reads (h : Reachable store) (session : SessionId) (target : CollectionName)
    {o : Options} (hcolumns : o.columns = []) (hgroups : o.groupBy = []) (hhaving : o.having = none)
    (hfree : ∀ rows, store.selected target o = .ok rows → ∀ row ∈ rows,
      ∀ holder ∈ store.locks.holders ⟨target, row.1⟩, holder.1 = session) :
    let found := (store.execute session (.find target o none)).1
    let deleted := store.execute session (.delete target o)
    ((∃ documents, found = .ok (.documents documents)) ↔ ∃ response, deleted.1 = .ok response)
      ∧ (∀ e, found = .error e → deleted.1 = .error e)
      ∧ ∀ documents, found = .ok (.documents documents) → ∃ stored rows,
          store.rows? target = some stored ∧ store.selected target o = .ok rows
          ∧ rows.Subperm stored ∧ documents = documentsOf rows
          ∧ deleted.1 = .ok (.affected (UInt64.ofNat documents.length))
          ∧ deleted.2.rows? target = some (stored.filter fun row => row.1 ∉ Assoc.keys rows)
          ∧ (∀ other, other ≠ target → deleted.2.rows? other = store.rows? other)
          ∧ ∀ operations response,
              let updated := store.execute session (.update target o operations)
              (updated.1 = .ok response
                ↔ operations ≠ []
                  ∧ (∀ row ∈ rows, ∃ doc, Update.apply operations row.2 = .ok doc)
                  ∧ response = .affected (UInt64.ofNat
                      (rows.countP fun row => (Update.changed? operations row.2).isSome)))
              ∧ (updated.1 = .ok response →
                  updated.2.rows? target = some (stored.map fun row =>
                    if row.1 ∈ Assoc.keys rows then
                      (row.1, (Update.changed? operations row.2).getD row.2)
                    else row)
                  ∧ ∀ other, other ≠ target → updated.2.rows? other = store.rows? other) := by
  intro found deleted
  have hfound : found = (store.selected target o).map fun rows => .documents (documentsOf rows) :=
    execute_find_eq hcolumns hgroups hhaving
  cases hselected : store.selected target o with
  | error e =>
      have hdeleted : deleted.1 = .error e := execute_delete_of_error hselected
      rw [hselected] at hfound
      rw [hfound, hdeleted]
      refine ⟨by simp [Except.map], fun _ h => h, fun documents hdocuments => ?_⟩
      cases hdocuments
  | ok rows =>
      have hwrite := selectForWrite_of_free hselected (hfree rows hselected)
      have hdeleted : deleted.1 = .ok (affected rows.length) :=
        congrArg Prod.fst (execute_delete_eq hwrite)
      obtain ⟨stored, hstored, hsub⟩ := subperm_of_selected hselected
      have hd := h.rowsDistinct target stored hstored
      rw [hselected] at hfound
      refine ⟨⟨fun _ => ⟨_, hdeleted⟩, fun _ => ⟨_, hfound⟩⟩, ?_, ?_⟩
      · -- The read has not failed.
        intro e he
        rw [hfound] at he
        cases he
      · intro documents hdocuments
        rw [hfound] at hdocuments
        cases hdocuments
        refine ⟨stored, rows, hstored, rfl, hsub, rfl, ?_, rows?_execute_delete hwrite hstored,
          fun other => rows?_execute_delete_of_ne hwrite, fun operations response =>
            ⟨execute_update_iff hwrite response, fun hok => ⟨?_, fun other =>
              rows?_execute_update_of_ne hwrite hok⟩⟩⟩
        · rw [documentsOf, List.length_map]
          exact hdeleted
        · rw [execute_update_ok hwrite hok]
          exact rows?_storing_changed operations hstored hd hsub

/-- Of two documents that pass the filter, the one with the greater `v` is read, removed and changed;
another session has locked the other one. -/
theorem writes_follow_reads_sorted :
    let books : CollectionName := ⟨"test", "books"⟩
    let doc (id : String) (v : Int64) : Document := [("_id", .str id), ("v", .int v)]
    let v : Expr := .field (.ofMember "v")
    let o : Options := {
      filter := some (.binary .gt v (.literal (.int 1)))
      sort := [⟨v, .desc⟩]
      limit := some 1 }
    let change : List Operation := [.set (.ofMember "v") (.literal (.int 9))]
    let store := (empty ⟨8, 0, 19⟩).run [.opened, .opened,
      .request 0 (.createCollection books false),
      .request 0 (.insert books [.obj (doc "a" 1), .obj (doc "b" 3), .obj (doc "c" 2)] false),
      .request 1 .begin,
      .request 1 (.find books { filter := some (.binary .eq v (.literal (.int 2))) }
        (some ⟨.exclusive, none⟩))]
    store.locks.conflict ⟨books, "c"⟩ 0 .exclusive = true
      ∧ (store.execute 0 (.find books o none)).1 = .ok (.documents [.obj (doc "b" 3)])
      ∧ (store.execute 0 (.delete books o)).1 = .ok (.affected 1)
      ∧ (store.execute 0 (.delete books o)).2.rows? books
          = some [("a", doc "a" 1), ("c", doc "c" 2)]
      ∧ (store.execute 0 (.update books o change)).1 = .ok (.affected 1)
      ∧ (store.execute 0 (.update books o change)).2.rows? books
          = some [("a", doc "a" 1), ("b", doc "b" 9), ("c", doc "c" 2)] := by
  intro books doc v o change store
  have hstore : Reachable store := (Reachable.empty ⟨8, 0, 19⟩).run _
  have hrows : store.rows? books = some [("a", doc "a" 1), ("b", doc "b" 3), ("c", doc "c" 2)] := by
    dsimp only [store, v, doc, books]
    rfl
  -- The documents that pass the filter are in order already.
  have hsorted : [([Value.int 3], ("b", doc "b" 3)), ([.int 2], ("c", doc "c" 2))].mergeSort
        (fun a b => (Query.compareKeys [.desc] a.1 b.1).isLE)
      = [([.int 3], ("b", doc "b" 3)), ([.int 2], ("c", doc "c" 2))] :=
    List.mergeSort_of_pairwise (by simp; rfl)
  have hselected : store.selected books o = .ok [("b", doc "b" 3)] := by
    rw [selected, rows_eq_ok.mpr hrows]
    exact congrArg (fun keyed => Except.ok (Query.window (some 1) none (keyed.map Prod.snd))) hsorted
  have hlocks : store.locks.holders ⟨books, "b"⟩ = [] := by
    dsimp only [store, v, doc, books]
    rfl
  have hfree : ∀ rows, store.selected books o = .ok rows → ∀ row ∈ rows,
      ∀ holder ∈ store.locks.holders ⟨books, row.1⟩, holder.1 = 0 := by
    intro rows hrows row hrow holder hholder
    rw [hselected] at hrows
    cases hrows
    obtain rfl := List.mem_singleton.mp hrow
    rw [hlocks] at hholder
    cases hholder
  have hfound : (store.execute 0 (.find books o none)).1 = .ok (.documents [.obj (doc "b" 3)]) := by
    rw [execute_find_eq rfl rfl rfl, hselected]
    rfl
  obtain ⟨-, -, hagree⟩ := writes_follow_reads hstore 0 books rfl rfl rfl hfree
  obtain ⟨stored, rows, hstored, hsome, -, -, hanswer, hdeleted, -, hupdate⟩ := hagree _ hfound
  rw [hrows] at hstored
  rw [hselected] at hsome
  cases hstored
  cases hsome
  have hchange : Update.apply change (doc "b" 3) = .ok (doc "b" 9) := rfl
  obtain ⟨hiff, hupdated⟩ := hupdate change (.affected 1)
  have hok : (store.execute 0 (.update books o change)).1 = .ok (.affected 1) := by
    refine hiff.mpr ⟨List.cons_ne_nil _ _, fun row hrow => ?_, rfl⟩
    obtain rfl := List.mem_singleton.mp hrow
    exact ⟨_, hchange⟩
  refine ⟨?_, hfound, hanswer, hdeleted, hok, (hupdated hok).1⟩
  dsimp only [store, v, doc, books]
  rfl

end Store

end DocStore
