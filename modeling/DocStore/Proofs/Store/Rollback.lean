import DocStore.Proofs.Store.Locking
import DocStore.Proofs.Store.Unwinding

/-!
# What a rollback undoes

Main statement: `rollback_undoes_own_writes`.  However the sessions of a store take turns, a
rollback gives every row that its session has written in the transaction the content it had before
the first of these writes, and it leaves every other row as it is.  If nobody else has changed a row
since the transaction began, the collections are what they were then, place for place.

Two invariants of a running transaction carry it.  The oldest note about a row says what the row was
before the first write to it (`oldest?_notes_run`), whoever else is at work.  And as long as the
others change no row, the notes turn the collections into what they were (`Unwinds`).
-/

namespace DocStore.Store

variable {store start : Store} {session : SessionId} {key : RowKey} {target : CollectionName}
  {event : Event}

/-! ## What a session has written -/

/-- The rows that an event writes for a session. -/
def writtenBy (store : Store) (session : SessionId) : Event → List RowKey
  | .request s request => if s = session then (store.writesOf s request).map RowWrite.row else []
  | _ => []

/-- What a row was just before the first of the events in which a session writes it; none if the
session never does. -/
def beforeFirstWrite (session : SessionId) (key : RowKey) : Store → List Event →
    Option (Option Document)
  | _, [] => none
  | store, event :: rest =>
    if key ∈ store.writtenBy session event then some (store.row? key)
    else beforeFirstWrite session key (store.step event) rest

/-- No event of another session changes a row of a collection, be it the document or the place. -/
def Undisturbed (session : SessionId) : Store → List Event → Prop
  | _, [] => True
  | store, event :: rest =>
    (event.isOf session = false → ∀ target rows, store.rows? target = some rows →
      (store.step event).rows? target = some rows)
    ∧ Undisturbed session (store.step event) rest

theorem writtenBy_of_isOf (h : event.isOf session = false) :
    store.writtenBy session event = [] := by
  cases event with
  | request s request => exact if_neg (of_decide_eq_false h)
  | _ => rfl

theorem has_of_mem_writtenBy (h : key ∈ store.writtenBy session event) :
    store.has key.collection = true := by
  cases event with
  | request s request =>
      rw [writtenBy] at h
      split at h
      · obtain ⟨w, hw, rfl⟩ := List.mem_map.mp h
        exact (free_of_mem_writesOf hw).1
      · cases h
  | _ => cases h

/-! ## A running transaction

What one event does to a transaction that it does not end. -/

/-- An event of another session leaves an open session as it is. -/
theorem session?_step (h : store.LocksSound) (hin : store.inTransaction session = true)
    (hother : event.isOf session = false) :
    (store.step event).session? session = store.session? session := by
  have hne : ∀ {s : SessionId}, decide (s = session) = false → session ≠ s :=
    fun hs heq => (of_decide_eq_false hs) heq.symm
  have heffect := step_effect store event
  generalize store.step event = after at heffect
  cases heffect with
  | nothing => rfl
  | create => rfl
  | drop => rfl
  | lock => rfl
  | write => exact session?_writeAll_of_ne _ (hne hother)
  | begin => exact session?_begin_of_ne (hne hother)
  | commit => exact session?_endTransaction_of_ne (hne hother)
  | rollback => exact session?_rollback_of_ne (hne hother)
  | closed => exact session?_closeSession_of_ne (hne hother)
  | opened =>
      refine session?_openSession_of_ne fun heq => ?_
      rw [inTransaction, heq, h.session?_nextSession] at hin
      cases hin

/-- A transaction goes on in one of two ways: its session writes rows, or the event says nothing to
it and, if it is its own, to any row. -/
theorem transaction_step (h : store.LocksSound) (hin : store.inTransaction session = true)
    (hends : event.ends session = false) :
    ((store.step event).session? session = store.session? session
        ∧ store.writtenBy session event = []
        ∧ (event.isOf session = true → ∀ target rows, event.drops target = false →
            store.rows? target = some rows → (store.step event).rows? target = some rows))
      ∨ ∃ request, event = .request session request
        ∧ store.step event = store.writeAll session (store.writesOf session request) := by
  cases hown : event.isOf session with
  | false =>
      exact .inl ⟨session?_step h hin hown, writtenBy_of_isOf hown, fun hown' => nomatch hown'⟩
  | true =>
      have heffect := step_effect store event
      generalize store.step event = after at heffect
      cases heffect with
      | @nothing s request hw =>
          refine .inl ⟨rfl, ?_, fun _ _ _ _ hrows => hrows⟩
          rw [writtenBy, if_pos (of_decide_eq_true hown), hw, List.map_nil]
      | @create s created reuse hnew =>
          refine .inl ⟨rfl, ?_, ?_⟩
          · rw [writtenBy, if_pos (of_decide_eq_true hown)]
            rfl
          · intro _ target rows _ hrows
            -- A collection that is there is not created.
            have hne : target ≠ created := by
              rintro rfl
              rw [has, hrows] at hnew
              cases hnew
            exact (Assoc.get?_insert_of_ne _ _ hne).trans hrows
      | @drop s dropped =>
          refine .inl ⟨rfl, ?_, ?_⟩
          · rw [writtenBy, if_pos (of_decide_eq_true hown)]
            rfl
          · intro _ target rows hdrops hrows
            have hne : target ≠ dropped := fun heq => of_decide_eq_false hdrops heq.symm
            exact (Assoc.get?_erase_of_ne _ hne).trans hrows
      | lock =>
          refine .inl ⟨rfl, ?_, fun _ _ _ _ hrows => hrows⟩
          rw [writtenBy, if_pos (of_decide_eq_true hown)]
          rfl
      | @write s request =>
          obtain rfl : s = session := of_decide_eq_true hown
          exact .inr ⟨request, rfl, rfl⟩
      | begin => exact absurd hown (Bool.eq_false_iff.mp hends)
      | commit => exact absurd hown (Bool.eq_false_iff.mp hends)
      | rollback => exact absurd hown (Bool.eq_false_iff.mp hends)
      | closed => exact absurd hown (Bool.eq_false_iff.mp hends)
      | opened => cases hown

theorem inTransaction_step (h : store.LocksSound) (hin : store.inTransaction session = true)
    (hends : event.ends session = false) : (store.step event).inTransaction session = true := by
  rcases transaction_step h hin hends with ⟨hsame, -⟩ | ⟨request, -, hwrites⟩
  · rw [inTransaction_congr hsame, hin]
  · rw [hwrites, inTransaction_writeAll, hin]

/-- The oldest note about a row outlasts the writes of the transaction; the first write to a row
that has none takes one. -/
theorem oldest?_notes_writeAll {writes : List RowWrite} (hin : store.inTransaction session = true)
    (hhas : ∀ w ∈ writes, store.has w.row.collection = true) :
    Undo.oldest? ((store.writeAll session writes).notes session) key
      = (Undo.oldest? (store.notes session) key).or
          (if key ∈ writes.map RowWrite.row then some (store.row? key) else none) := by
  induction writes generalizing store with
  | nil => exact Option.or_none.symm
  | cons w rest ih =>
      obtain ⟨rows, hrows⟩ := Option.isSome_iff_exists.mp (hhas w List.mem_cons_self)
      have hrest : ∀ w' ∈ rest, (store.write session w).has w'.row.collection = true := by
        intro w' hw'
        rw [has_write]
        exact hhas w' (List.mem_cons_of_mem _ hw')
      rw [writeAll_cons, ih (by rwa [inTransaction_write]) hrest, notes_write_self hrows hin,
        Undo.oldest?, Undo.row_ofRow, Option.or_assoc]
      congr 1
      by_cases hkey : w.row = key
      · -- The note just taken is older than those of the writes to come.
        subst hkey
        have hnote : (Undo.ofRow rows w.row).content = store.row? w.row := by
          rw [Undo.content_ofRow, row?, hrows, Option.bind_some]
        rw [if_pos rfl, Option.some_or, hnote, List.map_cons, if_pos List.mem_cons_self]
      · have hiff : key ∈ (w :: rest).map RowWrite.row ↔ key ∈ rest.map RowWrite.row := by
          rw [List.map_cons, List.mem_cons, or_iff_right (Ne.symm hkey)]
        rw [if_neg hkey, Option.none_or, row?_write_of_ne (Ne.symm hkey)]
        simp only [hiff]

theorem oldest?_notes_step (h : store.LocksSound) (hin : store.inTransaction session = true)
    (hends : event.ends session = false) :
    Undo.oldest? ((store.step event).notes session) key
      = (Undo.oldest? (store.notes session) key).or
          (if key ∈ store.writtenBy session event then some (store.row? key) else none) := by
  rcases transaction_step h hin hends with ⟨hsame, hnone, -⟩ | ⟨request, rfl, hwrites⟩
  · rw [notes_congr hsame, hnone]
    exact Option.or_none.symm
  · rw [hwrites, writtenBy, if_pos rfl]
    exact oldest?_notes_writeAll hin fun w hw => (free_of_mem_writesOf hw).1

/-- While a transaction runs, its oldest note about a row is what the row was before the first write
to it, be it from before or from these events. -/
theorem oldest?_notes_run {events : List Event} (h : store.LocksSound)
    (hin : store.inTransaction session = true)
    (hends : ∀ event ∈ events, event.ends session = false) :
    Undo.oldest? ((store.run events).notes session) key
      = (Undo.oldest? (store.notes session) key).or
        (beforeFirstWrite session key store events) := by
  induction events generalizing store with
  | nil => exact Option.or_none.symm
  | cons event rest ih =>
      have hevent := hends event List.mem_cons_self
      rw [run_cons, ih (h.step event) (inTransaction_step h hin hevent)
        (fun e he => hends e (List.mem_cons_of_mem _ he)), oldest?_notes_step h hin hevent,
        Option.or_assoc, beforeFirstWrite]
      congr 1
      split <;> rfl

/-- What a rollback makes of a row of a collection that is there, whatever has been dropped since
the transaction began. -/
theorem row?_rollback_run {events : List Event} (h : start.LocksSound)
    (hin : start.inTransaction session = true) (hnotes : start.notes session = [])
    (hends : ∀ event ∈ events, event.ends session = false)
    (hhas : (start.run events).has key.collection = true) :
    ((start.run events).rollback session).row? key
      = (beforeFirstWrite session key start events).getD ((start.run events).row? key) := by
  rw [row?_rollback hhas, oldest?_notes_run h hin hends, hnotes, Undo.oldest?, Option.none_or]

/-! ## Collections that stay -/

/-- A collection that is not there comes about empty, if at all. -/
theorem rows?_step_of_none (h : store.rows? target = none) :
    (store.step event).rows? target = none ∨ (store.step event).rows? target = some [] := by
  have hwrites : ∀ (session : SessionId) (writes : List RowWrite),
      (store.writeAll session writes).rows? target = none := by
    intro session writes
    have hhas : (store.writeAll session writes).has target = false := by
      rw [has_writeAll, has, h]
      rfl
    exact Option.isSome_eq_false_iff.mp hhas |> Option.isNone_iff_eq_none.mp
  have hundone : ∀ session, (store.rollback session).rows? target = none := by
    intro session
    rw [rows?_rollback, h, Option.map_none]
  have heffect := step_effect store event
  generalize store.step event = after at heffect
  cases heffect with
  | nothing => exact .inl h
  | @create _ created _ _ =>
      by_cases heq : target = created
      · rw [heq]
        exact .inr (Assoc.get?_insert_self _ _ _)
      · exact .inl ((Assoc.get?_insert_of_ne _ _ heq).trans h)
  | @drop _ dropped =>
      by_cases heq : target = dropped
      · rw [heq]
        exact .inl (Assoc.get?_erase_self _ _)
      · exact .inl ((Assoc.get?_erase_of_ne _ heq).trans h)
  | lock => exact .inl h
  | write => exact .inl (hwrites _ _)
  | begin => exact .inl h
  | commit => exact .inl h
  | rollback => exact .inl (hundone _)
  | opened => exact .inl h
  | closed => exact .inl (hundone _)

/-- Only a drop takes a collection away. -/
theorem has_step (h : store.has target = true) (hdrops : event.drops target = false) :
    (store.step event).has target = true := by
  have hundone : ∀ session, (store.rollback session).has target = true := by
    intro session
    rw [has, rows?_rollback, Option.isSome_map]
    exact h
  have heffect := step_effect store event
  generalize store.step event = after at heffect
  cases heffect with
  | nothing => exact h
  | @create _ created _ hnew =>
      have hne : target ≠ created := by
        rintro rfl
        rw [hnew] at h
        cases h
      rw [has, rows?]
      simp only
      rw [Assoc.get?_insert_of_ne _ _ hne]
      exact h
  | @drop _ dropped =>
      have hne : target ≠ dropped := fun heq => of_decide_eq_false hdrops heq.symm
      rw [has, rows?, dropCollection]
      simp only
      rw [Assoc.get?_erase_of_ne _ hne]
      exact h
  | lock => exact h
  | write => rwa [has_writeAll]
  | begin => exact h
  | commit => exact h
  | rollback => exact hundone _
  | opened => exact h
  | closed => exact hundone _

theorem has_run {events : List Event} (h : store.has target = true)
    (hdrops : ∀ event ∈ events, event.drops target = false) :
    (store.run events).has target = true := by
  induction events generalizing store with
  | nil => exact h
  | cons event rest ih =>
      exact ih (has_step h (hdrops event List.mem_cons_self))
        fun e he => hdrops e (List.mem_cons_of_mem _ he)

/-- A row that has been written is of a collection that is still there, if nothing is dropped. -/
theorem has_of_beforeFirstWrite {events : List Event} {before : Option Document}
    (h : beforeFirstWrite session key store events = some before)
    (hdrops : ∀ event ∈ events, event.drops key.collection = false) :
    (store.run events).has key.collection = true := by
  induction events generalizing store with
  | nil => cases h
  | cons event rest ih =>
      have hrest := fun e he => hdrops e (List.mem_cons_of_mem _ he)
      rw [beforeFirstWrite] at h
      split at h
      · next hmem =>
          rw [run_cons]
          exact has_run
            (has_step (has_of_mem_writtenBy hmem) (hdrops event List.mem_cons_self)) hrest
      · exact ih h hrest

/-! ## Back to the start -/

/-- The notes of the session turn the collections of `now` into those of `start`, and those that
have come about since into empty ones. -/
structure Unwinds (start now : Store) (session : SessionId) : Prop where
  rows : ∀ target, (now.rows? target).map (Undo.unwind (now.notes session) target)
    = (start.rows? target).or ((now.rows? target).map fun _ => [])
  /-- Notes are about collections that are there. -/
  there : ∀ undo ∈ now.notes session, now.has undo.row.collection = true

namespace Unwinds

variable {now after : Store} {w : RowWrite}

theorem of_notes_eq_nil (h : start.notes session = []) : Unwinds start start session where
  rows target := by
    rw [h]
    cases start.rows? target <;> rfl
  there undo hundo := by
    rw [h] at hundo
    cases hundo

/-- What neither takes a note nor changes a row may still create collections. -/
theorem extend (h : Unwinds start now session) (hnotes : after.notes session = now.notes session)
    (hkept : ∀ target rows, now.rows? target = some rows → after.rows? target = some rows)
    (hnew : ∀ target, now.rows? target = none →
      after.rows? target = none ∨ after.rows? target = some []) :
    Unwinds start after session where
  rows target := by
    have hrows := h.rows target
    cases hnow : now.rows? target with
    | some rows =>
        rw [hnow] at hrows
        rw [hkept target rows hnow, hnotes]
        exact hrows
    | none =>
        rw [hnow, Option.map_none] at hrows
        have hstart : start.rows? target = none := by
          rw [← Option.or_none (o := start.rows? target)]
          exact hrows.symm
        rcases hnew target hnow with hafter | hafter
        · rw [hafter, hstart]
          rfl
        · have hnone : ∀ undo ∈ now.notes session, undo.row.collection ≠ target := by
            rintro undo hundo rfl
            have hhas := h.there undo hundo
            rw [has, hnow] at hhas
            cases hhas
          rw [hafter, hnotes, Option.map_some, Undo.unwind_of_forall_ne hnone, hstart]
          rfl
  there undo hundo := by
    rw [hnotes] at hundo
    obtain ⟨rows, hrows⟩ := Option.isSome_iff_exists.mp (h.there undo hundo)
    rw [has, hkept _ rows hrows]
    rfl

/-- The note that a write takes takes the write back. -/
theorem write (h : Unwinds start now session) (hdistinct : now.RowsDistinct)
    (hin : now.inTransaction session = true) (hhas : now.has w.row.collection = true) :
    Unwinds start (now.write session w) session := by
  obtain ⟨rows, hrows⟩ := Option.isSome_iff_exists.mp hhas
  have hnotes := notes_write_self hrows hin
  refine ⟨fun target => ?_, fun undo hundo => ?_⟩
  · have hbefore := h.rows target
    rw [hnotes, rows?_write]
    by_cases heq : target = w.row.collection
    · rw [heq, hrows, Option.map_some, Option.map_some] at hbefore
      rw [if_pos heq, heq, hrows, Option.map_some, Option.map_some, Option.map_some,
        Undo.unwind_cons, if_pos (congrArg RowKey.collection (Undo.row_ofRow _ _)),
        Undo.restore_apply (hdistinct _ _ hrows)]
      exact hbefore
    · have hskip : Undo.unwind (Undo.ofRow rows w.row :: now.notes session) target
          = Undo.unwind (now.notes session) target := by
        funext others
        rw [Undo.unwind_cons, if_neg fun h => heq h.symm]
      rw [if_neg heq, hskip]
      exact hbefore
  · rw [hnotes] at hundo
    rw [has_write]
    rcases List.mem_cons.mp hundo with rfl | hmem
    · exact hhas
    · exact h.there undo hmem

theorem writeAll {writes : List RowWrite} (h : Unwinds start now session)
    (hdistinct : now.RowsDistinct) (hin : now.inTransaction session = true)
    (hhas : ∀ w ∈ writes, now.has w.row.collection = true) :
    Unwinds start (now.writeAll session writes) session := by
  induction writes generalizing now with
  | nil => exact h
  | cons w rest ih =>
      refine ih (h.write hdistinct hin (hhas w List.mem_cons_self)) (hdistinct.write w)
        (by rwa [inTransaction_write]) fun w' hw' => ?_
      rw [has_write]
      exact hhas w' (List.mem_cons_of_mem _ hw')

theorem step (h : Unwinds start now session) (hreach : Reachable now)
    (hin : now.inTransaction session = true) (hends : event.ends session = false)
    (hdrops : ∀ target, event.drops target = false)
    (hkept : event.isOf session = false → ∀ target rows, now.rows? target = some rows →
      (now.step event).rows? target = some rows) :
    Unwinds start (now.step event) session := by
  rcases transaction_step hreach.locksSound hin hends with ⟨hsame, -, hown⟩ | ⟨request, -, hwrites⟩
  · refine h.extend (notes_congr hsame) ?_ fun target => rows?_step_of_none
    intro target rows hrows
    cases hmine : event.isOf session with
    | true => exact hown hmine target rows (hdrops target) hrows
    | false => exact hkept hmine target rows hrows
  · rw [hwrites]
    exact h.writeAll hreach.rowsDistinct hin fun w hw => (free_of_mem_writesOf hw).1

theorem run {events : List Event} (h : Unwinds start now session) (hreach : Reachable now)
    (hin : now.inTransaction session = true)
    (hends : ∀ event ∈ events, event.ends session = false)
    (hdrops : ∀ event ∈ events, ∀ target, event.drops target = false)
    (hkept : Undisturbed session now events) : Unwinds start (now.run events) session := by
  induction events generalizing now with
  | nil => exact h
  | cons event rest ih =>
      have hevent := hends event List.mem_cons_self
      exact ih (h.step hreach hin hevent (hdrops event List.mem_cons_self) hkept.1)
        (hreach.step event) (inTransaction_step hreach.locksSound hin hevent)
        (fun e he => hends e (List.mem_cons_of_mem _ he))
        (fun e he => hdrops e (List.mem_cons_of_mem _ he)) hkept.2

end Unwinds

/-! ## The main statement -/

/-- The end of a session does to its rows and locks what a rollback does. -/
theorem step_ending {ending : Event}
    (h : ending = .request session .rollback ∨ ending = .closed session) :
    (store.step ending).collections = (store.rollback session).collections
      ∧ (store.step ending).locks = store.locks.release session
      ∧ (store.step ending).notes session = [] := by
  rcases h with rfl | rfl
  · exact ⟨rfl, rfl, notes_rollback_self⟩
  · exact ⟨rfl, rfl, notes_closeSession_self⟩

theorem begin_of_open (h : (store.session? session).isSome = true) :
    (store.begin session).inTransaction session = true := by
  obtain ⟨state, hstate⟩ := Option.isSome_iff_exists.mp h
  rw [inTransaction, session?_begin_self, hstate]
  rfl

/-- When a session rolls back, or is closed, it lets go of all its locks and notes, and outside a
transaction nothing else happens.  In a transaction, whatever all the sessions have done since it
began and as long as no collection has been dropped, each row that the session has written has the
content it had just before the first of these writes, and every other row stays as it is.  If the
others have changed no row since, each collection is what it was when the transaction began, and one
that has been created since is empty. -/
theorem rollback_undoes_own_writes (h : Reachable store) (session : SessionId) {ending : Event}
    (hending : ending = .request session .rollback ∨ ending = .closed session) :
    ((∀ key, session ∉ Assoc.keys ((store.step ending).locks.holders key))
        ∧ (store.step ending).notes session = [])
      ∧ (store.inTransaction session = false →
          ∀ target, (store.step ending).rows? target = store.rows? target)
      ∧ ∀ present : List Event, (store.session? session).isSome = true →
          (∀ event ∈ present, event.ends session = false ∧ ∀ target, event.drops target = false) →
          let start := store.step (.request session .begin)
          let now := start.run present
          let after := now.step ending
          (∀ key, after.row? key
              = (beforeFirstWrite session key start present).getD (now.row? key))
            ∧ (Undisturbed session start present → ∀ target,
                after.rows? target
                  = (start.rows? target).or ((now.rows? target).map fun _ => [])) := by
  have hcollections : ∀ (store : Store) (target : CollectionName), (store.step ending).rows? target
      = (store.rows? target).map (Undo.unwind (store.notes session) target) := by
    intro store target
    rw [← rows?_rollback, rows?, rows?, (step_ending hending).1]
  refine ⟨⟨?_, (step_ending hending).2.2⟩, ?_, ?_⟩
  · intro key
    rw [(step_ending hending).2.1]
    exact LockTable.not_mem_holders_release _ session key
  · intro hout target
    have hnotes : store.notes session = [] := by
      cases hs : store.session? session with
      | none => rw [notes, hs, Option.map_none, Option.getD_none]
      | some state =>
          rw [inTransaction, hs, Option.any_some] at hout
          rw [notes, hs, Option.map_some, Option.getD_some, h.locksSound.idle session state hs hout]
    rw [hcollections, hnotes]
    cases store.rows? target <;> rfl
  · intro present hopen hpresent start now after
    have hstart : Reachable start := h.step _
    have hin : start.inTransaction session = true := begin_of_open hopen
    have hnotes : start.notes session = [] := notes_begin_self
    have hends := fun e he => (hpresent e he).1
    have hdrops := fun e he => (hpresent e he).2
    refine ⟨fun key => ?_, fun hkept target => ?_⟩
    · have hrow : after.row? key = (now.rollback session).row? key := by
        rw [row?, row?, rows?, rows?, (step_ending hending).1]
      rw [hrow]
      cases hhas : now.has key.collection with
      | true => exact row?_rollback_run hstart.locksSound hin hnotes hends hhas
      | false =>
          -- Nothing of a collection that is not there has been written.
          have hunwritten : beforeFirstWrite session key start present = none := by
            cases hfirst : beforeFirstWrite session key start present with
            | none => rfl
            | some before =>
                have hthere := has_of_beforeFirstWrite hfirst fun e he => hdrops e he _
                rw [hhas] at hthere
                cases hthere
          have hmissing : now.rows? key.collection = none :=
            Option.isNone_iff_eq_none.mp (Option.isSome_eq_false_iff.mp hhas)
          rw [hunwritten, Option.getD_none, row?, row?, rows?_rollback, hmissing, Option.map_none]
    · rw [hcollections now target]
      exact ((Unwinds.of_notes_eq_nil hnotes).run hstart hin hends hdrops hkept).rows target

/-- A document is replaced and another one inserted and replaced while another session reads. -/
theorem rollback_undoes_own_writes_replaced :
    let books : CollectionName := ⟨"test", "books"⟩
    let one : Document := [("_id", .str "1")]
    let two : Document := [("_id", .str "2"), ("v", .null)]
    let store := (empty ⟨8, 0, 19⟩).run [.opened, .opened,
      .request 0 (.createCollection books false),
      .request 1 (.insert books [.obj one, .obj two] false)]
    let upsert (id : String) : Event :=
      .request 0 (.insert books [.obj [("_id", .str id), ("v", .bool true)]] true)
    let now := (store.step (.request 0 .begin)).run
      [upsert "1", .request 1 (.find books {} none), upsert "3", upsert "3"]
    let after := now.step (.request 0 .rollback)
    now.row? ⟨books, "1"⟩ = some [("_id", .str "1"), ("v", .bool true)]
      ∧ after.rows? books = some [("1", one), ("2", two)]
      ∧ after.row? ⟨books, "3"⟩ = none
      ∧ 0 ∉ Assoc.keys (after.locks.holders ⟨books, "1"⟩) := by
  intro books one two store upsert now after
  have hstore : Reachable store := (Reachable.empty ⟨8, 0, 19⟩).run _
  obtain ⟨-, -, hundone⟩ := rollback_undoes_own_writes hstore 0 (.inl rfl)
  obtain ⟨hrow, hrows⟩ := hundone
    [upsert "1", .request 1 (.find books {} none), upsert "3", upsert "3"] (by decide) (by
      intro event hevent
      simp only [List.mem_cons, List.not_mem_nil, or_false] at hevent
      rcases hevent with rfl | rfl | rfl | rfl <;> exact ⟨rfl, fun _ => rfl⟩)
  have hnow : Reachable now := (hstore.step _).run _
  obtain ⟨⟨hlocks, -⟩, -⟩ := rollback_undoes_own_writes hnow 0 (.inl rfl)
  refine ⟨?_, (hrows ?kept books).trans ?_, (hrow _).trans ?_, hlocks _⟩
  -- Closed terms evaluate much faster than terms with names for their parts.
  all_goals dsimp only [now, store, upsert, one, two, books]
  case kept => exact ⟨nofun, fun _ _ _ h => h, nofun, nofun, trivial⟩
  all_goals rfl

/-! ## Collections of one name

Notes find their collection by its name.  If it has been dropped and another one of that name
created, a rollback restores the rows of the first in the second. -/

/-- A rollback leaves a row as it is exactly if the session has not written a row of that collection
and identifier since its transaction began, or if the first that it has written was the same before.
Who has written the row since, and whether it is in the collection that the session wrote to or in a
later one of that name, does not matter. -/
theorem rollback_spares_iff (h : Reachable store) {ending : Event}
    (hending : ending = .request session .rollback ∨ ending = .closed session)
    (hopen : (store.session? session).isSome = true) {present : List Event}
    (hends : ∀ event ∈ present, event.ends session = false) {doc : Document}
    (hrow : ((store.step (.request session .begin)).run present).row? key = some doc) :
    (((store.step (.request session .begin)).run present).step ending).row? key = some doc
      ↔ ∀ before, beforeFirstWrite session key (store.step (.request session .begin)) present
          = some before → before = some doc := by
  have hthere : ((store.step (.request session .begin)).run present).has key.collection = true := by
    obtain ⟨rows, hrows, -⟩ := Option.bind_eq_some_iff.mp hrow
    rw [has, hrows, Option.isSome_some]
  have hafter := row?_rollback_run (h.step (.request session .begin)).locksSound
    (begin_of_open hopen) notes_begin_self hends hthere
  rw [row?, rows?, (step_ending hending).1]
  rw [row?, rows?, hrow] at hafter
  rw [hafter]
  cases beforeFirstWrite session key (store.step (.request session .begin)) present with
  | none =>
      refine iff_of_true rfl fun _ hbefore => ?_
      cases hbefore
  | some before =>
      rw [Option.getD_some]
      exact ⟨fun h _ hbefore => Option.some.inj hbefore ▸ h, fun h => h before rfl⟩

/-- Session 0 has inserted a document; session 1, in no transaction, drops the collection, creates
it again and inserts the document that the rollback then removes. -/
theorem rollback_reaches_successor :
    let books : CollectionName := ⟨"test", "books"⟩
    let key : RowKey := ⟨books, "1"⟩
    let doc (v : Bool) : Document := [("_id", .str "1"), ("v", .bool v)]
    let now := (empty ⟨8, 0, 19⟩).run [.opened, .opened,
      .request 0 (.createCollection books false), .request 0 .begin,
      .request 0 (.insert books [.obj (doc true)] true), .request 1 (.dropCollection books),
      .request 1 (.createCollection books false),
      .request 1 (.insert books [.obj (doc false)] true)]
    now.inTransaction 1 = false
      ∧ now.row? key = some (doc false)
      ∧ (now.step (.request 0 .rollback)).row? key = none := by
  dsimp only
  exact ⟨rfl, rfl, rfl⟩

/-- Session 0 has written document 2 of the collection that was dropped, and not document 1. -/
theorem rollback_spares_iff_recreated :
    let books : CollectionName := ⟨"test", "books"⟩
    let doc (id : String) (v : Bool) : Document := [("_id", .str id), ("v", .bool v)]
    let upsert (id : String) (v : Bool) : Request := .insert books [.obj (doc id v)] true
    let store := (empty ⟨8, 0, 19⟩).run [.opened, .opened,
      .request 0 (.createCollection books false)]
    let present : List Event := [.request 0 (upsert "2" true), .request 1 (.dropCollection books),
      .request 1 (.createCollection books false), .request 1 (upsert "1" false),
      .request 1 (upsert "2" false)]
    let after := ((store.step (.request 0 .begin)).run present).step (.closed 0)
    after.row? ⟨books, "1"⟩ = some (doc "1" false)
      ∧ after.row? ⟨books, "2"⟩ ≠ some (doc "2" false) := by
  intro books doc upsert store present after
  have hstore : Reachable store := (Reachable.empty ⟨8, 0, 19⟩).run _
  have hends : ∀ event ∈ present, event.ends 0 = false := by decide
  refine ⟨(rollback_spares_iff hstore (.inr rfl) rfl hends ?row).mpr ?unwritten, fun hspared =>
    nomatch (rollback_spares_iff hstore (.inr rfl) rfl hends ?other).mp hspared none ?absent⟩
  all_goals dsimp only [store, present, upsert, doc, books]
  case unwritten => exact fun _ hbefore => nomatch hbefore
  all_goals rfl

end DocStore.Store
