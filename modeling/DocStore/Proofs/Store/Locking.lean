import DocStore.Proofs.Store.History
import DocStore.Proofs.Store.LockTable

/-!
# Locks and writes

Main statement: `locks_isolate_writes`.  In every store that a history can reach, the lock table is
sound and only transactions hold locks; a row that somebody has locked is not written by anybody
else; and a transaction that has written a row holds it exclusively from then on, until it ends or
the collection is dropped.

`LocksSound` is the invariant that carries it.  It is kept by each of the changes that
`step_effect` lists, so by every event and every history.
-/

namespace DocStore.Store

variable {store : Store} {session other : SessionId} {key : RowKey}

/-- Locks are sound, transactions alone hold them, and transactions alone have something to undo. -/
structure LocksSound (store : Store) : Prop where
  table : store.locks.Sound
  /-- Who holds a lock is open and runs a transaction. -/
  active : ∀ entry ∈ store.locks, ∀ holder ∈ entry.2, store.inTransaction holder.1 = true
  idle : ∀ session state, store.session? session = some state → state.inTransaction = false →
    state.undo = []
  /-- The number of the next session is none of an open one. -/
  numbered : ∀ session ∈ Assoc.keys store.sessions, session < store.nextSession

theorem locksSound_empty (version : Version) : (empty version).LocksSound where
  table := LockTable.sound_nil
  active _ h := nomatch h
  idle _ _ h := nomatch h
  numbered _ h := nomatch h

namespace LocksSound

theorem active_of_mem (h : store.LocksSound) {holder : SessionId × RowLock}
    (hlock : holder ∈ store.locks.holders key) : store.inTransaction holder.1 = true :=
  h.active _ (LockTable.mem_of_mem_holders hlock) holder hlock

/-- The number of the next session is new to the store. -/
theorem session?_nextSession (h : store.LocksSound) : store.session? store.nextSession = none :=
  Assoc.get?_eq_none_iff.mpr fun hmem => Nat.lt_irrefl _ (h.numbered _ hmem)

/-! ## Taking locks -/

theorem acquire (h : store.LocksSound) {wanted : RowLock} (hin : store.inTransaction session = true)
    (hfree : store.locks.conflict key session wanted = false) :
    LocksSound { store with locks := store.locks.acquire session wanted key } where
  table := h.table.acquire hfree
  active := by
    intro entry hentry holder hholder
    rcases Assoc.mem_insert h.table.rows hentry with rfl | ⟨hmem, -⟩
    · rcases Assoc.mem_insert (h.table.holders_distinct key) hholder with rfl | ⟨hmem, -⟩
      · exact hin
      · exact h.active_of_mem hmem
    · exact h.active entry hmem holder hholder
  idle := h.idle
  numbered := h.numbered

theorem lockAll (h : store.LocksSound) {wanted : RowLock} {keys : List RowKey}
    (hin : store.inTransaction session = true)
    (hfree : ∀ key ∈ keys, store.locks.conflict key session wanted = false) :
    (store.lockAll session wanted keys).LocksSound :=
  LockTable.acquireAll_induction
    (motive := fun locks => LocksSound { store with locks := locks }) hfree h
    fun _ hkey hlocks => hlocks.acquire hin hkey

/-! ## Writing -/

theorem write (h : store.LocksSound) {w : RowWrite} (hfree : store.Free session w.row) :
    (store.write session w).LocksSound := by
  cases hrows : store.rows? w.row.collection with
  | none => rwa [write_of_missing hrows]
  | some rows =>
      have hlocked : LocksSound { store with locks := (store.write session w).locks } := by
        rw [locks_write]
        split
        · next hin => exact h.acquire (Bool.and_eq_true_iff.mp hin).2 hfree
        · exact h
      refine ⟨hlocked.table, ?_, ?_, ?_⟩
      · intro entry hentry holder hholder
        rw [inTransaction_write]
        exact hlocked.active entry hentry holder hholder
      · intro s state hstate hout
        rw [session?_write hrows] at hstate
        split at hstate
        · -- Outside a transaction nothing has been noted.
          obtain ⟨before, hbefore, rfl⟩ := Option.map_eq_some_iff.mp hstate
          rw [SessionState.noting_inTransaction] at hout
          rw [SessionState.noting, if_neg (by simp [hout])]
          exact h.idle s before hbefore hout
        · exact h.idle s state hstate hout
      · intro s hs
        rw [keys_sessions_write] at hs
        rw [nextSession_write]
        exact h.numbered s hs

end LocksSound

/-- The writes of one session do not lock a row against that session. -/
theorem free_write {w : RowWrite} (h : store.Free session key) :
    (store.write session w).Free session key := by
  rw [Free, locks_write]
  split
  · rw [LockTable.conflict_acquire]
    exact h
  · exact h

/-- What holds of a store and of what a write to a free row makes of it holds after many. -/
theorem writeAll_induction {motive : Store → Prop} {writes : List RowWrite}
    (hfree : ∀ w ∈ writes, store.Free session w.row) (start : motive store)
    (next : ∀ {store : Store} {w : RowWrite}, store.Free session w.row → motive store →
      motive (store.write session w)) :
    motive (store.writeAll session writes) := by
  induction writes generalizing store with
  | nil => exact start
  | cons w rest ih =>
      refine ih ?_ (next (hfree w List.mem_cons_self) start)
      intro w' hw'
      exact free_write (hfree w' (List.mem_cons_of_mem _ hw'))

namespace LocksSound

theorem writeAll (h : store.LocksSound) {writes : List RowWrite}
    (hfree : ∀ w ∈ writes, store.Free session w.row) : (store.writeAll session writes).LocksSound :=
  writeAll_induction hfree h fun hw hstore => hstore.write hw

/-! ## Transactions and sessions -/

theorem endTransaction (h : store.LocksSound) (session : SessionId) :
    (store.endTransaction session).LocksSound where
  table := h.table.release session
  active := by
    intro entry hentry holder hholder
    obtain ⟨hs, hmem, heq, -⟩ := LockTable.mem_release.mp hentry
    rw [← heq] at hholder
    obtain ⟨hin, hne⟩ := Assoc.mem_erase.mp hholder
    rw [inTransaction_congr (session?_endTransaction_of_ne hne)]
    exact h.active _ hmem holder hin
  idle := by
    intro s state hstate hout
    by_cases hs : s = session
    · subst hs
      rw [session?_endTransaction_self] at hstate
      obtain ⟨_, -, rfl⟩ := Option.map_eq_some_iff.mp hstate
      rfl
    · rw [session?_endTransaction_of_ne hs] at hstate
      exact h.idle s state hstate hout
  numbered := by
    intro s hs
    rw [Store.endTransaction, keys_sessions_modifySession] at hs
    exact h.numbered s hs

theorem begin (h : store.LocksSound) (session : SessionId) : (store.begin session).LocksSound where
  -- A transaction that is still running is committed first.
  table := (h.endTransaction session).table
  active := by
    intro entry hentry holder hholder
    have hin := (h.endTransaction session).active entry hentry holder hholder
    by_cases hs : holder.1 = session
    · rw [hs, inTransaction_endTransaction_self] at hin
      cases hin
    · rw [inTransaction_congr (session?_endTransaction_of_ne hs)] at hin
      rwa [inTransaction_congr (session?_begin_of_ne hs)]
  idle := by
    intro s state hstate hout
    by_cases hs : s = session
    · subst hs
      rw [session?_begin_self] at hstate
      obtain ⟨_, -, rfl⟩ := Option.map_eq_some_iff.mp hstate
      cases hout
    · rw [session?_begin_of_ne hs] at hstate
      exact h.idle s state hstate hout
  numbered := by
    intro s hs
    rw [Store.begin, keys_sessions_modifySession] at hs
    exact (h.endTransaction session).numbered s hs

theorem rollback (h : store.LocksSound) (session : SessionId) :
    (store.rollback session).LocksSound :=
  let undone : Store :=
    { store with collections := (store.notes session).foldl Undo.apply store.collections }
  have hundone : undone.LocksSound := ⟨h.table, h.active, h.idle, h.numbered⟩
  hundone.endTransaction session

theorem openSession (h : store.LocksSound) : store.openSession.2.LocksSound where
  table := h.table
  active := by
    intro entry hentry holder hholder
    have hin := h.active entry hentry holder hholder
    -- No session has the number yet, so nobody holds a lock under it.
    have hne : holder.1 ≠ store.nextSession := by
      intro heq
      rw [inTransaction, heq, h.session?_nextSession] at hin
      cases hin
    rwa [inTransaction_congr (session?_openSession_of_ne hne)]
  idle := by
    intro s state hstate hout
    by_cases hs : s = store.nextSession
    · subst hs
      rw [session?_openSession_self] at hstate
      cases hstate
      rfl
    · rw [session?_openSession_of_ne hs] at hstate
      exact h.idle s state hstate hout
  numbered := by
    intro s hs
    have hkeys : s ∈ Assoc.keys (Assoc.insert store.sessions store.nextSession .idle) := hs
    rw [Assoc.keys_insert] at hkeys
    split at hkeys
    · exact Nat.lt_succ_of_lt (h.numbered s hkeys)
    · rcases List.mem_append.mp hkeys with hin | hin
      · exact Nat.lt_succ_of_lt (h.numbered s hin)
      · rw [List.mem_singleton.mp hin]
        exact Nat.lt_succ_self _

theorem closeSession (h : store.LocksSound) (session : SessionId) :
    (store.closeSession session).LocksSound where
  table := (h.rollback session).table
  active := by
    intro entry hentry holder hholder
    have hin := (h.rollback session).active entry hentry holder hholder
    have hne : holder.1 ≠ session := by
      intro heq
      rw [inTransaction, heq, session?_rollback_self] at hin
      cases hs : store.session? session <;> simp [hs, SessionState.idle] at hin
    rw [inTransaction_congr (session?_closeSession_of_ne hne)]
    rwa [inTransaction_congr (session?_rollback_of_ne hne)] at hin
  idle := by
    intro s state hstate hout
    by_cases hs : s = session
    · subst hs
      rw [session?_closeSession_self] at hstate
      cases hstate
    · rw [session?_closeSession_of_ne hs] at hstate
      exact h.idle s state hstate hout
  numbered := by
    intro s hs
    have hkeys : s ∈ Assoc.keys (Assoc.erase (store.rollback session).sessions session) := hs
    rw [Assoc.keys_erase] at hkeys
    exact (h.rollback session).numbered s (List.mem_filter.mp hkeys).1

theorem dropCollection (h : store.LocksSound) (target : CollectionName) :
    (store.dropCollection target).LocksSound where
  table := h.table.forget target
  active entry hentry := h.active entry (List.mem_filter.mp hentry).1
  idle := h.idle
  numbered := h.numbered

/-- Every event keeps the invariant. -/
theorem step (h : store.LocksSound) (event : Event) : (store.step event).LocksSound := by
  have heffect := step_effect store event
  generalize store.step event = after at heffect
  cases heffect with
  | nothing => exact h
  | create => exact ⟨h.table, h.active, h.idle, h.numbered⟩
  | drop => exact h.dropCollection _
  | lock hin hfree => exact h.lockAll hin hfree
  | write => exact h.writeAll fun w hw => (free_of_mem_writesOf hw).2
  | begin => exact h.begin _
  | commit => exact h.endTransaction _
  | rollback => exact h.rollback _
  | opened => exact h.openSession
  | closed => exact h.closeSession _

end LocksSound

theorem Reachable.locksSound (h : Reachable store) : store.LocksSound := by
  induction h with
  | empty version => exact locksSound_empty version
  | step event _ ih => exact ih.step event

/-! ## Locked rows stay as they are -/

/-- The request stores or removes the row, or changes what it is. -/
def Touches (store : Store) (session : SessionId) (request : Request) (key : RowKey) : Prop :=
  key ∈ (store.writesOf session request).map RowWrite.row
    ∨ (store.execute session request).2.row? key ≠ store.row? key

theorem mem_writesOf_of_touches {request : Request} (hwrite : request.isWrite = true)
    (h : store.Touches session request key) :
    key ∈ (store.writesOf session request).map RowWrite.row := by
  rcases h with hmem | hchanged
  · exact hmem
  · by_contra hnot
    rw [execute_write hwrite, row?_writeAll_of_not_mem hnot] at hchanged
    exact hchanged rfl

/-- A request writes no row that another session has locked. -/
theorem not_mem_writesOf_of_locked {lock : RowLock}
    (hlock : (other, lock) ∈ store.locks.holders key)
    (hne : other ≠ session) (request : Request) :
    key ∉ (store.writesOf session request).map RowWrite.row := by
  intro hmem
  obtain ⟨w, hw, rfl⟩ := List.mem_map.mp hmem
  have hfree : store.locks.conflict w.row session .exclusive = false := (free_of_mem_writesOf hw).2
  rw [LockTable.conflict, Holders.conflict_exclusive hlock hne] at hfree
  cases hfree

theorem row?_execute_of_locked {lock : RowLock} (hlock : (other, lock) ∈ store.locks.holders key)
    (hne : other ≠ session) {request : Request} (hwrite : request.isWrite = true) :
    (store.execute session request).2.row? key = store.row? key := by
  rw [execute_write hwrite]
  exact row?_writeAll_of_not_mem (not_mem_writesOf_of_locked hlock hne request)

/-! ## Written rows stay locked -/

/-- The session has an exclusive lock on the row. -/
def HoldsExclusively (store : Store) (session : SessionId) (key : RowKey) : Prop :=
  (session, RowLock.exclusive) ∈ store.locks.holders key

theorem holdsExclusively_write_self {w : RowWrite} (hhas : store.has w.row.collection = true)
    (hin : store.inTransaction session = true) :
    (store.write session w).HoldsExclusively session w.row := by
  rw [HoldsExclusively, locks_write, hhas, hin, Bool.and_self, if_pos rfl,
    LockTable.holders_acquire, if_pos rfl]
  exact Holders.mem_acquire_exclusive

theorem HoldsExclusively.write (h : store.HoldsExclusively session key) (hsound : store.LocksSound)
    {w : RowWrite} (hfree : store.Free other w.row) :
    (store.write other w).HoldsExclusively session key := by
  rw [HoldsExclusively, locks_write]
  split
  · exact LockTable.exclusive_acquire hsound.table h hfree
  · exact h

theorem HoldsExclusively.writeAll (h : store.HoldsExclusively session key)
    (hsound : store.LocksSound) {writes : List RowWrite}
    (hfree : ∀ w ∈ writes, store.Free other w.row) :
    (store.writeAll other writes).HoldsExclusively session key := by
  have hboth : (store.writeAll other writes).LocksSound
      ∧ (store.writeAll other writes).HoldsExclusively session key :=
    writeAll_induction
      (motive := fun store => store.LocksSound ∧ store.HoldsExclusively session key) hfree
      ⟨hsound, h⟩ fun hw ⟨hstore, hlock⟩ => ⟨hstore.write hw, hlock.write hstore hw⟩
  exact hboth.2

/-- A transaction holds the rows that it writes. -/
theorem holdsExclusively_writeAll {writes : List RowWrite} (hsound : store.LocksSound)
    (hin : store.inTransaction session = true)
    (hfree : ∀ w ∈ writes, store.has w.row.collection = true ∧ store.Free session w.row)
    (hmem : key ∈ writes.map RowWrite.row) :
    (store.writeAll session writes).HoldsExclusively session key := by
  induction writes generalizing store with
  | nil => cases hmem
  | cons w rest ih =>
      obtain ⟨hhas, hw⟩ := hfree w List.mem_cons_self
      have hrest : ∀ w' ∈ rest, (store.write session w).has w'.row.collection = true
          ∧ (store.write session w).Free session w'.row := by
        intro w' hw'
        obtain ⟨hhas', hfree'⟩ := hfree w' (List.mem_cons_of_mem _ hw')
        rw [has_write]
        exact ⟨hhas', free_write hfree'⟩
      rcases List.mem_cons.mp hmem with rfl | hmem
      · exact (holdsExclusively_write_self hhas hin).writeAll (hsound.write hw)
          fun w' hw' => (hrest w' hw').2
      · exact ih (hsound.write hw) (by rwa [inTransaction_write]) hrest hmem

/-- An exclusive lock outlasts every event but the end of its transaction and the drop of its
collection. -/
theorem HoldsExclusively.step (h : store.HoldsExclusively session key) (hsound : store.LocksSound)
    {event : Event} (hends : event.ends session = false)
    (hdrops : event.drops key.collection = false) :
    (store.step event).HoldsExclusively session key := by
  have hother : ∀ {s : SessionId}, decide (s = session) = false → session ≠ s :=
    fun hs heq => (of_decide_eq_false hs) heq.symm
  have heffect := step_effect store event
  generalize store.step event = after at heffect
  cases heffect with
  | nothing => exact h
  | create => exact h
  | drop =>
      have hne : key.collection ≠ _ := fun heq => of_decide_eq_false hdrops heq.symm
      exact LockTable.mem_holders_forget hsound.table h hne
  | lock hin hfree =>
      have hboth := LockTable.acquireAll_induction
        (motive := fun locks => locks.Sound ∧ (session, RowLock.exclusive) ∈ locks.holders key)
        hfree ⟨hsound.table, h⟩ fun _ hkey ⟨htable, hlock⟩ =>
          ⟨htable.acquire hkey, LockTable.exclusive_acquire htable hlock hkey⟩
      exact hboth.2
  | write => exact h.writeAll hsound fun w hw => (free_of_mem_writesOf hw).2
  | begin => exact LockTable.mem_holders_release hsound.table h (hother hends)
  | commit => exact LockTable.mem_holders_release hsound.table h (hother hends)
  | rollback => exact LockTable.mem_holders_release hsound.table h (hother hends)
  | opened => exact h
  | closed => exact LockTable.mem_holders_release hsound.table h (hother hends)

theorem HoldsExclusively.run (h : store.HoldsExclusively session key) (hsound : store.LocksSound)
    {history : List Event} (hends : ∀ event ∈ history, event.ends session = false)
    (hdrops : ∀ event ∈ history, event.drops key.collection = false) :
    (store.run history).HoldsExclusively session key := by
  induction history generalizing store with
  | nil => exact h
  | cons event rest ih =>
      have hnext := h.step hsound (hends event List.mem_cons_self) (hdrops event List.mem_cons_self)
      exact ih hnext (hsound.step event) (fun e he => hends e (List.mem_cons_of_mem _ he))
        fun e he => hdrops e (List.mem_cons_of_mem _ he)

/-! ## The main statement -/

/-- In every reachable store, the locks are sound: no row has two entries, each entry has holders,
none of them twice and nobody beside an exclusive one; who holds a lock is open and runs a
transaction; who runs none has nothing to undo.  A row that another session has locked stays as it
is whatever a session inserts, updates or deletes.  A row that a transaction writes is locked
exclusively by its session until the transaction ends or the collection is dropped. -/
theorem locks_isolate_writes (h : Reachable store) :
    store.LocksSound
      ∧ (∀ (session other : SessionId) (key : RowKey) (lock : RowLock) (request : Request),
          (other, lock) ∈ store.locks.holders key → other ≠ session → request.isWrite = true →
          (store.execute session request).2.row? key = store.row? key)
      ∧ (∀ (session : SessionId) (request : Request) (key : RowKey) (later : List Event),
          store.inTransaction session = true → request.isWrite = true →
          store.Touches session request key →
          (∀ event ∈ later, event.ends session = false ∧ event.drops key.collection = false) →
          ((store.step (.request session request)).run later).HoldsExclusively session key) := by
  refine ⟨h.locksSound, ?_, ?_⟩
  · intro session other key lock request hlock hne hwrite
    exact row?_execute_of_locked hlock hne hwrite
  · intro session request key later hin hwrite htouches hlater
    have hsound := h.locksSound
    have hnow : (store.step (.request session request)).HoldsExclusively session key := by
      rw [step, execute_write hwrite]
      exact holdsExclusively_writeAll hsound hin (fun w hw => free_of_mem_writesOf hw)
        (mem_writesOf_of_touches hwrite htouches)
    exact hnow.run (hsound.step _) (fun e he => (hlater e he).1) fun e he => (hlater e he).2

/-- In a store of two sessions, the first has inserted a document in a transaction. -/
theorem locks_isolate_writes_inserted :
    let books : CollectionName := ⟨"test", "books"⟩
    let row : RowKey := ⟨books, "1"⟩
    let history : List Event := [.opened, .opened, .request 0 (.createCollection books false),
      .request 0 .begin, .request 0 (.insert books [.obj [("_id", .str "1")]] false)]
    let store := (empty ⟨8, 0, 19⟩).run history
    let upsert : Request := .insert books [.obj [("_id", .str "1"), ("v", .bool true)]] true
    store.LocksSound
      ∧ (store.execute 1 upsert).2.row? row = some [("_id", .str "1")]
      ∧ ((store.step (.request 0 upsert)).run [.request 1 upsert]).HoldsExclusively 0 row := by
  intro books row history store upsert
  obtain ⟨hsound, hothers, hwritten⟩ :=
    locks_isolate_writes ((Reachable.empty ⟨8, 0, 19⟩).run history)
  refine ⟨hsound, ?_, ?_⟩
  · rw [hothers 1 0 row .exclusive upsert (by decide) (by decide) rfl]
    rfl
  · refine hwritten 0 upsert row [.request 1 upsert] (by decide) rfl (.inl ?_) ?_
    · exact List.mem_singleton.mpr rfl
    · intro event hevent
      rw [List.mem_singleton.mp hevent]
      exact ⟨rfl, rfl⟩

end DocStore.Store
