import DocStore.Proofs.Store.Inserting
import DocStore.Proofs.Store.Unwinding

/-!
# Writing in place

`Store.execute` gives the store after a request as a whole.  A server changes its store in place
instead: it stores or removes one document after the other, each of these steps may fail on its own,
and what was done before a failure stays done.  `InPlace.execute` is that server.

Main statement: `writes_all_or_nothing`.  In place or not, a write does the same: no step fails once
the first document is stored, so a write that fails has changed nothing.  An insertion that must not
replace anything succeeds exactly if its documents are new rows.
-/

namespace DocStore

/-- Work on a store, which keeps what was done before a failure. -/
abbrev Work := ExceptT DocError (StateM Store)

namespace Work

variable {α β : Type} {work : Work α} {store after : Store}

def run (work : Work α) (store : Store) : Except DocError α × Store :=
  StateT.run (ExceptT.run work) store

/-- Look at the store, which may fail and changes nothing. -/
def read (look : Store → Except DocError α) : Work α := do
  MonadExcept.ofExcept (look (← get))

theorem run_bind_ok {a : α} (h : work.run store = (.ok a, after)) (next : α → Work β) :
    Work.run (work >>= next) store = (next a).run after := by
  rw [run] at h
  rw [run, ExceptT.run_bind, StateT.run_bind, h]
  rfl

theorem run_bind_error {e : DocError} (h : work.run store = (.error e, after))
    (next : α → Work β) : Work.run (work >>= next) store = (.error e, after) := by
  rw [run] at h
  rw [run, ExceptT.run_bind, StateT.run_bind, h]
  rfl

theorem run_read (look : Store → Except DocError α) (store : Store) :
    (read look).run store = (look store, store) := by
  show Work.run (MonadExcept.ofExcept (look store)) store = _
  cases look store <;> rfl

end Work

namespace Store

namespace InPlace

/-! ## One document -/

/-- Store a document; the answer is the one in whose place it is. -/
def put (session : SessionId) (key : RowKey) (doc : Document) : Work (Option Document) := do
  let rows ← Work.read fun store => store.rows key.collection
  modify fun store => store.put session key doc
  return Assoc.get? rows key.id

/-- Remove a document; the answer is whether it was there. -/
def remove (session : SessionId) (key : RowKey) : Work Bool := do
  let rows ← Work.read fun store => store.rows key.collection
  if Assoc.contains rows key.id then
    modify fun store => store.remove session key
    return true
  else return false

/-! ## Many documents -/

/-- Store documents one after the other; the answer is what they count for together. -/
def putEach (session : SessionId) (target : CollectionName) : Rows → Work Nat
  | [] => return 0
  | (id, doc) :: rest => do
    let previous ← put session ⟨target, id⟩ doc
    let count ← putEach session target rest
    return insertWeight previous doc + count

/-- Remove documents one after the other; the answer is how many were there. -/
def removeEach (session : SessionId) (target : CollectionName) : Rows → Work Nat
  | [] => return 0
  | (id, _) :: rest => do
    let removed ← remove session ⟨target, id⟩
    let count ← removeEach session target rest
    return (if removed then 1 else 0) + count

/-! ## Requests -/

/-- Answer a request of a session. -/
def execute (session : SessionId) : Request → Work Response
  | .insert target documents upsert => do
    let added ← Work.read fun store => store.insertedRows session target documents upsert
    return affected (← putEach session target added)
  | .update target o operations => do
    let changed ← Work.read fun store => store.updatedRows session target o operations
    let _ ← putEach session target changed
    return affected changed.length
  | .delete target o => do
    let selected ← Work.read fun store => store.selectForWrite session target o
    return affected (← removeEach session target selected)
  | request => ExceptT.mk fun store => store.execute session request

end InPlace

variable {store : Store} {session : SessionId} {target : CollectionName}

/-! ## No step fails

The collection is there, and stays there while documents are stored and removed. -/

theorem rows_of_has (h : store.has target = true) :
    ∃ rows, store.rows? target = some rows ∧ store.rows target = .ok rows := by
  obtain ⟨rows, hrows⟩ := Option.isSome_iff_exists.mp h
  exact ⟨rows, hrows, rows_eq_ok.mpr hrows⟩

theorem run_put {key : RowKey} (h : store.has key.collection = true) (doc : Document) :
    (InPlace.put session key doc).run store = (.ok (store.row? key), store.put session key doc) := by
  obtain ⟨rows, hrows?, hrows⟩ := rows_of_has h
  have hread := Work.run_read (fun store => store.rows key.collection) store
  rw [hrows] at hread
  rw [InPlace.put, Work.run_bind_ok hread, row?, hrows?]
  rfl

theorem run_remove {key : RowKey} (h : (store.row? key).isSome = true) :
    (InPlace.remove session key).run store = (.ok true, store.remove session key) := by
  obtain ⟨doc, hdoc⟩ := Option.isSome_iff_exists.mp h
  obtain ⟨rows, hrows?, hrow⟩ := Option.bind_eq_some_iff.mp hdoc
  have hread := Work.run_read (fun store => store.rows key.collection) store
  rw [rows_eq_ok.mpr hrows?] at hread
  have hcontains : Assoc.contains rows key.id = true := by rw [Assoc.contains, hrow]; rfl
  rw [InPlace.remove, Work.run_bind_ok hread, if_pos hcontains]
  rfl

theorem run_putEach (rows : Rows) (h : store.has target = true) :
    (InPlace.putEach session target rows).run store
      = (.ok (store.putAll session target rows).1, (store.putAll session target rows).2) := by
  induction rows generalizing store with
  | nil => rfl
  | cons row rest ih =>
      obtain ⟨id, doc⟩ := row
      have hnext : (store.put session ⟨target, id⟩ doc).has target = true := by
        show (store.write session ⟨⟨target, id⟩, some doc⟩).has target = true
        rwa [has_write]
      rw [InPlace.putEach, Work.run_bind_ok (run_put h doc), Work.run_bind_ok (ih hnext), putAll]
      rfl

theorem run_removeEach (rows : Rows) (hdistinct : (Assoc.keys rows).Nodup)
    (hthere : ∀ row ∈ rows, (store.row? ⟨target, row.1⟩).isSome = true) :
    (InPlace.removeEach session target rows).run store
      = (.ok rows.length,
          (keysOf target rows).foldl (fun store key => store.remove session key) store) := by
  induction rows generalizing store with
  | nil => rfl
  | cons row rest ih =>
      obtain ⟨id, doc⟩ := row
      obtain ⟨hid, hrest⟩ := List.nodup_cons.mp hdistinct
      have hnext : ∀ row ∈ rest,
          ((store.remove session ⟨target, id⟩).row? ⟨target, row.1⟩).isSome = true := by
        intro row hrow
        have hne : (⟨target, row.1⟩ : RowKey) ≠ ⟨target, id⟩ := by
          intro heq
          exact hid (List.mem_map.mpr ⟨row, hrow, (RowKey.mk.inj heq).2⟩)
        show ((store.write session ⟨⟨target, id⟩, none⟩).row? _).isSome = true
        rw [row?_write_of_ne hne]
        exact hthere row (List.mem_cons_of_mem _ hrow)
      rw [InPlace.removeEach, Work.run_bind_ok (run_remove (hthere (id, doc) List.mem_cons_self)),
        Work.run_bind_ok (ih hrest hnext), List.length_cons, Nat.add_comm]
      rfl

/-- The rows that a deletion selects are there, none of them twice. -/
theorem distinct_of_selectForWrite (h : store.RowsDistinct) {o : Options} {selected : Rows}
    (hselected : store.selectForWrite session target o = .ok selected) :
    (Assoc.keys selected).Nodup
      ∧ ∀ row ∈ selected, (store.row? ⟨target, row.1⟩).isSome = true := by
  obtain ⟨rows, hrows, hsub⟩ := subperm_of_selectForWrite hselected
  have hdistinct := h target rows hrows
  refine ⟨nodup_keys_of_subperm hsub hdistinct, fun row hrow => ?_⟩
  rw [row?, hrows, Option.bind_some, Assoc.get?_of_mem hdistinct (hsub.subset hrow)]
  rfl

/-! ## Requests -/

/-- In place, every request does what it does to the store as a whole. -/
theorem run_execute (h : store.RowsDistinct) (session : SessionId) (request : Request) :
    (InPlace.execute session request).run store = store.execute session request := by
  cases request with
  | insert target documents upsert =>
      have hread := Work.run_read
        (fun store => store.insertedRows session target documents upsert) store
      rw [InPlace.execute, execute, insert_eq]
      cases hadded : store.insertedRows session target documents upsert with
      | error e =>
          rw [hadded] at hread
          rw [Work.run_bind_error hread]
          rfl
      | ok added =>
          rw [hadded] at hread
          rw [Work.run_bind_ok hread,
            Work.run_bind_ok (run_putEach added (insertedRows_ok hadded).1)]
          rfl
  | update target o operations =>
      have hread := Work.run_read
        (fun store => store.updatedRows session target o operations) store
      rw [InPlace.execute, execute, update_eq]
      cases hchanged : store.updatedRows session target o operations with
      | error e =>
          rw [hchanged] at hread
          rw [Work.run_bind_error hread]
          rfl
      | ok changed =>
          rw [hchanged] at hread
          rw [Work.run_bind_ok hread,
            Work.run_bind_ok (run_putEach changed (updatedRows_ok hchanged).1)]
          rfl
  | delete target o =>
      have hread := Work.run_read (fun store => store.selectForWrite session target o) store
      rw [InPlace.execute, execute, delete_eq]
      cases hselected : store.selectForWrite session target o with
      | error e =>
          rw [hselected] at hread
          rw [Work.run_bind_error hread]
          rfl
      | ok selected =>
          rw [hselected] at hread
          obtain ⟨hdistinct, hthere⟩ := distinct_of_selectForWrite h hselected
          rw [Work.run_bind_ok hread, Work.run_bind_ok (run_removeEach selected hdistinct hthere)]
          rfl
  | _ => rfl

/-- A write that fails leaves the store as it was. -/
theorem execute_of_error {request : Request} (hwrite : request.isWrite = true) {e : DocError}
    (h : (store.execute session request).1 = .error e) :
    (store.execute session request).2 = store := by
  have hsettle : ∀ {outcome : Except DocError (Nat × Store)},
      (store.settle affected outcome).1 = .error e → (store.settle affected outcome).2 = store := by
    intro outcome h
    cases outcome with
    | error e' => rfl
    | ok result => cases h
  cases request with
  | insert target documents upsert => exact hsettle h
  | update target o operations => exact hsettle h
  | delete target o => exact hsettle h
  | _ => cases hwrite

/-! ## The main statement -/

/-- In every reachable store, an insertion, update or deletion that is carried out in place, document
by document, does what it does as a whole, and if it fails, the store is what it was before.  An
insertion that must not replace anything succeeds exactly if the collection is there and the
documents are rows that are new to it and that nobody else has locked; it appends them in order and
answers with their number. -/
theorem writes_all_or_nothing (h : Reachable store) (session : SessionId) :
    (∀ request : Request, request.isWrite = true →
        (InPlace.execute session request).run store = store.execute session request
          ∧ ∀ e, (store.execute session request).1 = .error e →
              (store.execute session request).2 = store)
      ∧ ∀ target documents,
          let outcome := store.execute session (.insert target documents false)
          ((∃ response, outcome.1 = .ok response)
              ↔ ∃ stored added, store.Insertable session target documents stored added)
            ∧ ∀ stored added, store.Insertable session target documents stored added →
                outcome.1 = .ok (.affected (UInt64.ofNat documents.length))
                  ∧ outcome.2.rows? target = some (stored ++ added)
                  ∧ ∀ other, other ≠ target → outcome.2.rows? other = store.rows? other := by
  refine ⟨fun request hwrite => ⟨?_, fun e => ?_⟩, fun target documents => ⟨?_, ?_⟩⟩
  · exact run_execute h.rowsDistinct session request
  · exact execute_of_error hwrite
  · exact execute_insert_eq_ok_iff
  · intro stored added hinsertable
    exact execute_insert_new hinsertable

/-- In a transaction that has inserted document 1, a batch that has it again is refused as a whole,
and a batch of new documents is appended. -/
theorem writes_all_or_nothing_duplicate :
    let books : CollectionName := ⟨"test", "books"⟩
    let doc (id : String) : Document := [("_id", .str id)]
    let batch (ids : List String) : Request := .insert books (ids.map fun id => .obj (doc id)) false
    let store := (empty ⟨8, 0, 19⟩).run [.opened, .request 0 (.createCollection books false),
      .request 0 .begin, .request 0 (batch ["1"])]
    (InPlace.execute 0 (batch ["2", "1"])).run store = (.error duplicateKey, store)
      ∧ (store.execute 0 (batch ["2", "3"])).1 = .ok (.affected 2)
      ∧ (store.execute 0 (batch ["2", "3"])).2.rows? books
          = some [("1", doc "1"), ("2", doc "2"), ("3", doc "3")] := by
  intro books doc batch store
  have hstore : Reachable store := (Reachable.empty ⟨8, 0, 19⟩).run _
  obtain ⟨hwrites, hinsertions⟩ := writes_all_or_nothing hstore 0
  have hinsertable : store.Insertable 0 books (["2", "3"].map fun id => .obj (doc id))
      [("1", doc "1")] [("2", doc "2"), ("3", doc "3")] := by
    constructor
    case there => dsimp only [store, batch, doc, books]; rfl
    case documents => rfl
    case identified =>
      intro row hrow
      simp only [List.mem_cons, List.not_mem_nil, or_false] at hrow
      rcases hrow with rfl | rfl <;> exact ⟨_, rfl, rfl⟩
    case distinct => decide
    case new => decide
    case free => dsimp only [store, batch, doc, books]; decide
  obtain ⟨hanswer, hrows, -⟩ := (hinsertions books _).2 _ _ hinsertable
  refine ⟨?_, hanswer, hrows⟩
  obtain ⟨hsame, hunchanged⟩ := hwrites (batch ["2", "1"]) rfl
  have hfails : (store.execute 0 (batch ["2", "1"])).1 = .error duplicateKey := by
    dsimp only [store, batch, doc, books]
    rfl
  rw [hsame]
  exact Prod.ext hfails (hunchanged _ hfails)

end Store

end DocStore
