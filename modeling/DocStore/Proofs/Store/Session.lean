import DocStore.Proofs.Assoc
import DocStore.Store.Transaction

/-!
# The sessions of a store

What the beginning and the end of a transaction, and of a session itself, make of the states of
sessions and of the notes from which a transaction would be undone.  Each of them changes the state
of one session alone.
-/

namespace DocStore

/-- The state of a session once a write has been noted; outside a transaction it stays as it is. -/
def SessionState.noting (undo : Undo) (state : SessionState) : SessionState :=
  if state.inTransaction then { state with undo := undo :: state.undo } else state

theorem SessionState.noting_inTransaction (undo : Undo) (state : SessionState) :
    (state.noting undo).inTransaction = state.inTransaction := by
  rw [noting]
  split <;> rfl

namespace Store

/-- The undo notes of a session, the latest first. -/
def notes (store : Store) (session : SessionId) : List Undo :=
  ((store.session? session).map SessionState.undo).getD []

variable {store : Store} {session other : SessionId}

theorem inTransaction_iff :
    store.inTransaction session = true
      ↔ ∃ state, store.session? session = some state ∧ state.inTransaction = true := by
  rw [inTransaction, Option.any_eq_true]

theorem inTransaction_congr {before after : Store}
    (h : after.session? session = before.session? session) :
    after.inTransaction session = before.inTransaction session := by
  rw [inTransaction, inTransaction, h]

theorem notes_congr {before after : Store}
    (h : after.session? session = before.session? session) :
    after.notes session = before.notes session := by
  rw [notes, notes, h]

theorem session?_modifySession_self (f : SessionState → SessionState) :
    (store.modifySession session f).session? session = (store.session? session).map f :=
  Assoc.get?_modify_self store.sessions session f

theorem session?_modifySession_of_ne (f : SessionState → SessionState) (h : other ≠ session) :
    (store.modifySession session f).session? other = store.session? other :=
  Assoc.get?_modify_of_ne store.sessions f h

theorem keys_sessions_modifySession (f : SessionState → SessionState) :
    Assoc.keys (store.modifySession session f).sessions = Assoc.keys store.sessions :=
  Assoc.keys_modify store.sessions session f

/-! ## Taking a note -/

theorem collections_note (undo : Undo) :
    (store.note session undo).collections = store.collections := by
  rw [note]
  split <;> rfl

theorem locks_note (undo : Undo) :
    (store.note session undo).locks
      = if store.inTransaction session then store.locks.acquire session .exclusive undo.row
        else store.locks := by
  rw [note]
  split <;> rfl

theorem nextSession_note (undo : Undo) :
    (store.note session undo).nextSession = store.nextSession := by
  rw [note]
  split <;> rfl

theorem keys_sessions_note (undo : Undo) :
    Assoc.keys (store.note session undo).sessions = Assoc.keys store.sessions := by
  rw [note]
  split
  · exact keys_sessions_modifySession _
  · rfl

theorem session?_note (undo : Undo) (other : SessionId) :
    (store.note session undo).session? other
      = if other = session then (store.session? other).map (SessionState.noting undo)
        else store.session? other := by
  rw [note]
  by_cases ht : store.inTransaction session = true
  · rw [if_pos ht]
    split
    · next heq =>
        subst heq
        obtain ⟨state, hs, hin⟩ := inTransaction_iff.mp ht
        rw [session?_modifySession_self, hs, Option.map_some, SessionState.noting, if_pos hin]
        exact congrArg (Option.map _) hs
    · next hne => exact session?_modifySession_of_ne _ hne
  · rw [if_neg ht]
    split
    · next heq =>
        subst heq
        cases hs : store.session? other with
        | none => rfl
        | some state =>
            have hout : ¬ state.inTransaction = true := fun hin =>
              ht (inTransaction_iff.mpr ⟨state, hs, hin⟩)
            rw [Option.map_some, SessionState.noting, if_neg hout]
    · rfl

/-! ## The end of a transaction -/

theorem session?_endTransaction_self :
    (store.endTransaction session).session? session
      = (store.session? session).map fun _ => .idle :=
  session?_modifySession_self _

theorem session?_endTransaction_of_ne (h : other ≠ session) :
    (store.endTransaction session).session? other = store.session? other :=
  session?_modifySession_of_ne _ h

theorem inTransaction_endTransaction_self :
    (store.endTransaction session).inTransaction session = false := by
  rw [inTransaction, session?_endTransaction_self]
  cases store.session? session <;> rfl

theorem notes_endTransaction_self : (store.endTransaction session).notes session = [] := by
  rw [notes, session?_endTransaction_self]
  cases store.session? session <;> rfl

theorem session?_rollback_of_ne (h : other ≠ session) :
    (store.rollback session).session? other = store.session? other :=
  session?_modifySession_of_ne _ h

theorem session?_rollback_self :
    (store.rollback session).session? session = (store.session? session).map fun _ => .idle :=
  session?_modifySession_self _

theorem notes_rollback_self : (store.rollback session).notes session = [] := by
  rw [notes, session?_rollback_self]
  cases store.session? session <;> rfl

/-! ## The beginning of a transaction -/

theorem session?_begin_self :
    (store.begin session).session? session = (store.session? session).map fun _ => ⟨true, []⟩ := by
  rw [begin, session?_modifySession_self, commit, session?_endTransaction_self, Option.map_map]
  rfl

theorem session?_begin_of_ne (h : other ≠ session) :
    (store.begin session).session? other = store.session? other := by
  rw [begin, session?_modifySession_of_ne _ h, commit, session?_endTransaction_of_ne h]

theorem notes_begin_self : (store.begin session).notes session = [] := by
  rw [notes, session?_begin_self]
  cases store.session? session <;> rfl

/-! ## Opening and closing -/

theorem session?_openSession_self :
    store.openSession.2.session? store.nextSession = some .idle :=
  Assoc.get?_insert_self store.sessions store.nextSession .idle

theorem notes_openSession_self : store.openSession.2.notes store.nextSession = [] := by
  rw [notes, session?_openSession_self]
  rfl

theorem session?_openSession_of_ne (h : other ≠ store.nextSession) :
    store.openSession.2.session? other = store.session? other :=
  Assoc.get?_insert_of_ne store.sessions _ h

theorem session?_closeSession_self : (store.closeSession session).session? session = none :=
  Assoc.get?_erase_self (store.rollback session).sessions session

theorem notes_closeSession_self : (store.closeSession session).notes session = [] := by
  rw [notes, session?_closeSession_self]
  rfl

theorem session?_closeSession_of_ne (h : other ≠ session) :
    (store.closeSession session).session? other = store.session? other := by
  rw [session?, closeSession]
  simp only
  rw [Assoc.get?_erase_of_ne _ h]
  exact session?_rollback_of_ne h

end Store

end DocStore
