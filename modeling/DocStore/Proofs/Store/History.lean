import DocStore.Proofs.Outcome
import DocStore.Proofs.Store.Writing
import DocStore.Store.Execute

/-!
# Histories of a store

Sessions are opened, make requests and are closed, in any order and any number of them at once.
Each of these is an `Event`; `Store.step` is what one event does to a store and `Store.run` what a
whole history does.  `Reachable` stores are those that a history makes of an empty one.

`step_effect` says, once and for all, what an event can do.  Invariants are proved by going through
its cases, so no later proof looks into the execution of a request again.
-/

namespace DocStore

inductive Event where
  | opened
  | request (session : SessionId) (request : Request)
  | closed (session : SessionId)

/-- Whether the request writes documents. -/
def Request.isWrite : Request → Bool
  | .insert .. | .update .. | .delete .. => true
  | _ => false

namespace Event

/-- Whether the event ends the transaction of a session, if only to begin another. -/
def ends (session : SessionId) : Event → Bool
  | .request s .begin | .request s .commit | .request s .rollback | .closed s => s = session
  | _ => false

/-- Whether the event drops a collection. -/
def drops (target : CollectionName) : Event → Bool
  | .request _ (.dropCollection t) => t = target
  | _ => false

/-- Whether the event is one of a session's. -/
def isOf (session : SessionId) : Event → Bool
  | .request s _ | .closed s => s = session
  | .opened => false

end Event

namespace Store

def step (store : Store) : Event → Store
  | .opened => store.openSession.2
  | .request session request => (store.execute session request).2
  | .closed session => store.closeSession session

/-- The store after a history. -/
def run (store : Store) (history : List Event) : Store := history.foldl step store

variable {store : Store}

@[simp] theorem run_cons (event : Event) (rest : List Event) :
    store.run (event :: rest) = (store.step event).run rest := rfl

/-- The stores that some history makes of an empty one. -/
inductive Reachable : Store → Prop
  | empty (version : Version) : Reachable (Store.empty version)
  | step {store : Store} (event : Event) : Reachable store → Reachable (store.step event)

theorem Reachable.run (h : Reachable store) (history : List Event) :
    Reachable (store.run history) := by
  induction history generalizing store with
  | nil => exact h
  | cons event rest ih => exact ih (h.step event)

/-! ## The writes of a request -/

/-- The rows that an insertion stores. -/
def insertedRows (store : Store) (session : SessionId) (target : CollectionName)
    (documents : List Value) (upsert : Bool) : Except DocError Rows := do
  let prepared ← prepare upsert (Assoc.keys (← store.rows target)) documents
  store.checkFree session target (Assoc.keys prepared)
  return prepared

/-- The rows that an update changes, with their new documents. -/
def updatedRows (store : Store) (session : SessionId) (target : CollectionName) (o : Options)
    (operations : List Operation) : Except DocError Rows := do
  if operations.isEmpty then throw Update.noOperations
  changedRows operations (← store.selectForWrite session target o)

/-- The rows of a write; one that fails has none. -/
def rowsOrNone : Except DocError Rows → Rows
  | .ok rows => rows
  | .error _ => []

def storing (target : CollectionName) (rows : Rows) : List RowWrite :=
  rows.map fun row => ⟨⟨target, row.1⟩, some row.2⟩

def removing (target : CollectionName) (rows : Rows) : List RowWrite :=
  rows.map fun row => ⟨⟨target, row.1⟩, none⟩

/-- The row writes of a request, in order: those of an insertion, update or deletion that
succeeds. -/
def writesOf (store : Store) (session : SessionId) : Request → List RowWrite
  | .insert target documents upsert =>
    storing target (rowsOrNone (store.insertedRows session target documents upsert))
  | .update target o operations =>
    storing target (rowsOrNone (store.updatedRows session target o operations))
  | .delete target o => removing target (rowsOrNone (store.selectForWrite session target o))
  | _ => []

theorem putAll_eq_writeAll (session : SessionId) (target : CollectionName) (rows : Rows) :
    (store.putAll session target rows).2 = store.writeAll session (storing target rows) := by
  induction rows generalizing store with
  | nil => rfl
  | cons row rest ih => exact ih

theorem removeAll_eq_writeAll (session : SessionId) (target : CollectionName) (rows : Rows) :
    (keysOf target rows).foldl (fun store key => store.remove session key) store
      = store.writeAll session (removing target rows) := by
  induction rows generalizing store with
  | nil => rfl
  | cons row rest ih => exact ih

/-- A write works out the rows that it stores or removes before it changes anything. -/
theorem insert_eq (session : SessionId) (target : CollectionName) (documents : List Value)
    (upsert : Bool) :
    store.insert session target documents upsert
      = (store.insertedRows session target documents upsert).map
          (store.putAll session target) := by
  rw [insert, insertedRows]
  cases store.rows target with
  | error e => rfl
  | ok rows =>
      simp only [bind, Except.bind]
      cases prepare upsert (Assoc.keys rows) documents with
      | error e => rfl
      | ok prepared =>
          simp only
          cases store.checkFree session target (Assoc.keys prepared) <;> rfl

theorem update_eq (session : SessionId) (target : CollectionName) (o : Options)
    (operations : List Operation) :
    store.update session target o operations
      = (store.updatedRows session target o operations).map fun changed =>
          (changed.length, (store.putAll session target changed).2) := by
  rw [update, updatedRows]
  cases operations.isEmpty with
  | true => rfl
  | false =>
      simp only [bind, Except.bind]
      cases store.selectForWrite session target o with
      | error e => rfl
      | ok selected =>
          simp only
          cases changedRows operations selected <;> rfl

theorem delete_eq (session : SessionId) (target : CollectionName) (o : Options) :
    store.delete session target o
      = (store.selectForWrite session target o).map fun selected =>
          (selected.length,
            (keysOf target selected).foldl (fun store key => store.remove session key) store) := by
  rw [delete]
  cases store.selectForWrite session target o <;> rfl

theorem execute_insert (session : SessionId) (target : CollectionName) (documents : List Value)
    (upsert : Bool) :
    (store.execute session (.insert target documents upsert)).2
      = store.writeAll session (store.writesOf session (.insert target documents upsert)) := by
  rw [execute, insert_eq, writesOf]
  cases store.insertedRows session target documents upsert with
  | error e => rfl
  | ok added => exact putAll_eq_writeAll session target added

theorem execute_update (session : SessionId) (target : CollectionName) (o : Options)
    (operations : List Operation) :
    (store.execute session (.update target o operations)).2
      = store.writeAll session (store.writesOf session (.update target o operations)) := by
  rw [execute, update_eq, writesOf]
  cases store.updatedRows session target o operations with
  | error e => rfl
  | ok changed => exact putAll_eq_writeAll session target changed

theorem execute_delete (session : SessionId) (target : CollectionName) (o : Options) :
    (store.execute session (.delete target o)).2
      = store.writeAll session (store.writesOf session (.delete target o)) := by
  rw [execute, delete_eq, writesOf]
  cases store.selectForWrite session target o with
  | error e => rfl
  | ok selected => exact removeAll_eq_writeAll session target selected

theorem execute_write {session : SessionId} {request : Request} (h : request.isWrite = true) :
    (store.execute session request).2
      = store.writeAll session (store.writesOf session request) := by
  cases request with
  | insert target documents upsert => exact execute_insert session target documents upsert
  | update target o operations => exact execute_update session target o operations
  | delete target o => exact execute_delete session target o
  | _ => cases h

/-! ## Where a request may write

Every row write of a request is to a collection that is there, and to a row that no other session
has locked. -/

/-- No other session has a lock on the row. -/
def Free (store : Store) (session : SessionId) (key : RowKey) : Prop :=
  store.locks.conflict key session .exclusive = false

theorem has_of_rows {target : CollectionName} {rows : Rows} (h : store.rows target = .ok rows) :
    store.has target = true := by
  rw [Store.rows] at h
  rw [has]
  split at h
  · next heq => rw [heq, Option.isSome_some]
  · cases h

theorem free_of_checkFree {session : SessionId} {target : CollectionName} {rows : Rows}
    {done : Unit} (h : store.checkFree session target (Assoc.keys rows) = .ok done) :
    ∀ row ∈ rows, store.Free session ⟨target, row.1⟩ := by
  intro row hrow
  rw [checkFree] at h
  split at h
  · cases h
  · next hany =>
      rw [Bool.not_eq_true, List.any_eq_false] at hany
      have hfree := hany row.1 (List.mem_map.mpr ⟨row, hrow, rfl⟩)
      simpa [Free] using hfree

theorem selectForWrite_ok {session : SessionId} {target : CollectionName} {o : Options}
    {selected : Rows} (h : store.selectForWrite session target o = .ok selected) :
    store.has target = true ∧ ∀ row ∈ selected, store.Free session ⟨target, row.1⟩ := by
  rw [selectForWrite] at h
  obtain ⟨rows, hrows, h⟩ := Outcome.bind_eq_ok.mp h
  obtain ⟨filtered, -, h⟩ := Outcome.bind_eq_ok.mp h
  obtain ⟨sorted, -, h⟩ := Outcome.bind_eq_ok.mp h
  obtain ⟨done, hfree, h⟩ := Outcome.bind_eq_ok.mp h
  cases h
  exact ⟨has_of_rows hrows, free_of_checkFree hfree⟩

theorem insertedRows_ok {session : SessionId} {target : CollectionName} {documents : List Value}
    {upsert : Bool} {inserted : Rows}
    (h : store.insertedRows session target documents upsert = .ok inserted) :
    store.has target = true ∧ ∀ row ∈ inserted, store.Free session ⟨target, row.1⟩ := by
  rw [insertedRows] at h
  obtain ⟨rows, hrows, h⟩ := Outcome.bind_eq_ok.mp h
  obtain ⟨prepared, -, h⟩ := Outcome.bind_eq_ok.mp h
  obtain ⟨done, hfree, h⟩ := Outcome.bind_eq_ok.mp h
  cases h
  exact ⟨has_of_rows hrows, free_of_checkFree hfree⟩

/-- An update changes some of the rows it is given, each by its operations. -/
theorem mem_of_mem_changedRows {operations : List Operation} {rows changed : Rows}
    (h : changedRows operations rows = .ok changed) {row : String × Document}
    (hrow : row ∈ changed) :
    ∃ old, (row.1, old) ∈ rows ∧ Update.apply operations old = .ok row.2 := by
  induction rows generalizing changed with
  | nil =>
      cases h
      cases hrow
  | cons head rest ih =>
      obtain ⟨id, doc⟩ := head
      rw [changedRows] at h
      obtain ⟨updated, hupdated, h⟩ := Outcome.bind_eq_ok.mp h
      obtain ⟨others, hothers, h⟩ := Outcome.bind_eq_ok.mp h
      have hrest : row ∈ others → ∃ old, (row.1, old) ∈ (id, doc) :: rest
          ∧ Update.apply operations old = .ok row.2 := fun hmem =>
        (ih hothers hmem).imp fun _ => And.imp_left (List.mem_cons_of_mem _)
      cases h
      split at hrow
      · exact hrest hrow
      · rcases List.mem_cons.mp hrow with rfl | hmem
        · exact ⟨doc, List.mem_cons_self, hupdated⟩
        · exact hrest hmem

theorem updatedRows_ok {session : SessionId} {target : CollectionName} {o : Options}
    {operations : List Operation} {updated : Rows}
    (h : store.updatedRows session target o operations = .ok updated) :
    store.has target = true ∧ ∀ row ∈ updated, store.Free session ⟨target, row.1⟩ := by
  rw [updatedRows] at h
  split at h
  · cases h
  · obtain ⟨selected, hselected, hchanged⟩ := Outcome.bind_eq_ok.mp h
    obtain ⟨hhas, hfree⟩ := selectForWrite_ok hselected
    refine ⟨hhas, fun row hrow => ?_⟩
    obtain ⟨old, hold, -⟩ := mem_of_mem_changedRows hchanged hrow
    exact hfree (row.1, old) hold

theorem free_of_mem_writesOf {session : SessionId} {request : Request} {w : RowWrite}
    (h : w ∈ store.writesOf session request) :
    store.has w.row.collection = true ∧ store.Free session w.row := by
  have hrows : ∀ {target : CollectionName} {outcome : Except DocError Rows}
      {row : String × Document}, (∀ rows, outcome = .ok rows →
        store.has target = true ∧ ∀ row ∈ rows, store.Free session ⟨target, row.1⟩) →
      row ∈ rowsOrNone outcome → store.has target = true ∧ store.Free session ⟨target, row.1⟩ := by
    intro target outcome row hok hrow
    cases outcome with
    | error e => cases hrow
    | ok rows => exact ⟨(hok rows rfl).1, (hok rows rfl).2 row hrow⟩
  cases request with
  | insert target documents upsert =>
      obtain ⟨row, hrow, rfl⟩ := List.mem_map.mp h
      exact hrows (fun _ => insertedRows_ok) hrow
  | update target o operations =>
      obtain ⟨row, hrow, rfl⟩ := List.mem_map.mp h
      exact hrows (fun _ => updatedRows_ok) hrow
  | delete target o =>
      obtain ⟨row, hrow, rfl⟩ := List.mem_map.mp h
      exact hrows (fun _ => selectForWrite_ok) hrow
  | _ => cases h

/-! ## Locking reads -/

/-- Give a session a lock on each of some rows. -/
def lockAll (store : Store) (session : SessionId) (wanted : RowLock) (keys : List RowKey) : Store :=
  { store with locks := store.locks.acquireAll session wanted keys }

theorem lockable_ok {session : SessionId} {target : CollectionName} {lock : LockDirective}
    {rows kept : Rows} (h : store.lockable session target lock rows = .ok kept) :
    ∀ row ∈ kept, store.locks.conflict ⟨target, row.1⟩ session lock.rowLock = false := by
  intro row hrow
  rw [lockable] at h
  -- Locked rows fail a read that wants an error of them, and are left out of any other.
  generalize contentionError? store.version lock.option = error? at h
  cases error? with
  | some e =>
      by_cases hany : rows.any fun row => store.locks.conflict ⟨target, row.1⟩ session lock.rowLock
      · simp only [hany, if_true] at h
        cases h
      · simp only [hany] at h
        cases h
        rw [← Bool.not_eq_true]
        exact fun hblocked => hany (List.any_eq_true.mpr ⟨row, hrow, hblocked⟩)
  | none =>
      cases h
      simpa using (List.mem_filter.mp hrow).2

theorem matchedRows_ok {session : SessionId} {target : CollectionName} {o : Options}
    {directive : LockDirective} {rows : Rows}
    (h : store.matchedRows session target o (some directive) = .ok rows) :
    ∃ filtered, store.lockable session target directive filtered = .ok rows := by
  unfold matchedRows at h
  by_cases hv : store.version.supports Version.rowLocking = true
  · simp only [hv, Bool.not_true, Bool.and_false, Bool.false_eq_true, if_false] at h
    obtain ⟨stored, -, h⟩ := Outcome.bind_eq_ok.mp h
    obtain ⟨filtered, -, h⟩ := Outcome.bind_eq_ok.mp h
    exact ⟨filtered, h⟩
  · simp only [hv] at h
    cases h

/-- A read takes the locks it asks for, if at all, inside a transaction and on rows that the locks
of others leave to it. -/
theorem execute_find (session : SessionId) (target : CollectionName) (o : Options)
    (lock : Option LockDirective) :
    (store.execute session (.find target o lock)).2 = store
      ∨ ∃ wanted keys, store.inTransaction session = true
        ∧ (∀ key ∈ keys, store.locks.conflict key session wanted = false)
        ∧ (store.execute session (.find target o lock)).2 = store.lockAll session wanted keys := by
  rw [execute, find]
  cases hm : store.matchedRows session target o lock with
  | error e => exact .inl rfl
  | ok rows =>
      cases lock with
      | none => exact .inl rfl
      | some directive =>
          simp only [lockRows]
          split
          · next ht =>
              refine .inr ⟨directive.rowLock, keysOf target rows, ht, ?_, rfl⟩
              intro key hkey
              obtain ⟨row, hrow, rfl⟩ := List.mem_map.mp hkey
              obtain ⟨filtered, hlock⟩ := matchedRows_ok hm
              exact lockable_ok hlock row hrow
          · exact .inl rfl

/-! ## What an event can do -/

/-- What an event can make of a store. -/
inductive Effect (store : Store) : Event → Store → Prop
  | nothing {session : SessionId} {request : Request} (hw : store.writesOf session request = [])
      (he : (Event.request session request).ends session = false) :
      Effect store (.request session request) store
  | create {session : SessionId} {target : CollectionName} {reuse : Bool}
      (hnew : store.has target = false) :
      Effect store (.request session (.createCollection target reuse))
        { store with collections := Assoc.insert store.collections target [] }
  | drop {session : SessionId} {target : CollectionName} :
      Effect store (.request session (.dropCollection target)) (store.dropCollection target)
  | lock {session : SessionId} {target : CollectionName} {o : Options} {lock : Option LockDirective}
      {wanted : RowLock} {keys : List RowKey} (hin : store.inTransaction session = true)
      (hfree : ∀ key ∈ keys, store.locks.conflict key session wanted = false) :
      Effect store (.request session (.find target o lock)) (store.lockAll session wanted keys)
  | write {session : SessionId} {request : Request}
      (he : (Event.request session request).ends session = false) :
      Effect store (.request session request)
        (store.writeAll session (store.writesOf session request))
  | begin {session : SessionId} : Effect store (.request session .begin) (store.begin session)
  | commit {session : SessionId} : Effect store (.request session .commit) (store.commit session)
  | rollback {session : SessionId} :
      Effect store (.request session .rollback) (store.rollback session)
  | opened : Effect store .opened store.openSession.2
  | closed {session : SessionId} : Effect store (.closed session) (store.closeSession session)

theorem createCollection_effect (session : SessionId) (target : CollectionName) (reuse : Bool) :
    Effect store (.request session (.createCollection target reuse))
      (store.execute session (.createCollection target reuse)).2 := by
  rw [execute, createCollection]
  split
  · split
    · exact .nothing rfl rfl
    · exact .nothing rfl rfl
  · next h => exact .create (by simpa [has, rows?, Assoc.contains] using h)

theorem step_effect (store : Store) (event : Event) : Effect store event (store.step event) := by
  cases event with
  | opened => exact .opened
  | closed session => exact .closed
  | request session request =>
      cases request with
      | hello _ => exact .nothing rfl rfl
      | listCollections _ => exact .nothing rfl rfl
      | count _ => exact .nothing rfl rfl
      | createCollection target reuse => exact createCollection_effect session target reuse
      | dropCollection target => exact .drop
      | find target o lock =>
          rcases execute_find session target o lock with h | ⟨wanted, keys, hin, hfree, h⟩
          · rw [step, h]
            exact .nothing rfl rfl
          · rw [step, h]
            exact .lock hin hfree
      | insert target documents upsert =>
          rw [step, execute_insert]
          exact .write rfl
      | update target o operations =>
          rw [step, execute_update]
          exact .write rfl
      | delete target o =>
          rw [step, execute_delete]
          exact .write rfl
      | begin => exact .begin
      | commit => exact .commit
      | rollback => exact .rollback

end Store

end DocStore
