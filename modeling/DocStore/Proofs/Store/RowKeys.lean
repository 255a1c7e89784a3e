import DocStore.Client.Change
import DocStore.Proofs.Expr.Accepted
import DocStore.Proofs.Store.Inserting
import DocStore.Proofs.Store.Unwinding
import DocStore.Proofs.Update

/-!
# Rows stand under the texts of their identifiers

Main statement: `rows_identified`.  Whatever sessions insert, replace, update, delete, drop and roll
back, every row that is stored has an identifier, and its key is the text of it.  Updates are those
that statements send (`Operation.Sent`).

`Identified` is the invariant that carries it.  It speaks of the undo notes too, because a rollback
stores the documents that they hold.
-/

namespace DocStore

/-! ## What statements send -/

namespace Operation

/-- The operation is one that a call of a statement adds: its path has been read from a text, and
what it merges is a document. -/
def OfCall : Operation → Prop
  | .set path _ | .change path _ | .unset path | .arrayInsert path _ | .arrayAppend path _ =>
    ∃ text, Path.parse text = .ok path
  | .mergePatch patch => ∃ doc, patch = .obj doc

/-- The operations are those of a statement: its calls have added them, or they put one document in
the place of another. -/
def Sent (operations : List Operation) : Prop :=
  (∀ op ∈ operations, op.OfCall) ∨ ∃ doc, operations = [.set ⟨[]⟩ (.literal (.obj doc))]

theorem Sent.keepsObject {operations : List Operation} (h : Sent operations) :
    ∀ op ∈ operations, op.KeepsObject := by
  intro op hop
  rcases h with hcalls | ⟨doc, rfl⟩
  · have hcall := hcalls op hop
    cases op with
    | mergePatch patch => exact hcall
    | arrayAppend path value =>
        obtain ⟨text, htext⟩ := hcall
        exact Path.not_isRoot_of_parse htext
    | _ => trivial
  · obtain rfl := List.mem_singleton.mp hop
    trivial

end Operation

/-- The event is no update, or one that a statement sends. -/
def Event.Sent : Event → Prop
  | .request _ (.update _ _ operations) => Operation.Sent operations
  | _ => True

/-! ## Rows and notes

The functions that writes and rollbacks apply to the rows of a collection keep them identified. -/

section Rows

variable {rows : Rows}

theorem identified_apply {w : RowWrite} (hrows : ∀ row ∈ rows, IdentifiedBy row.2 row.1)
    (hw : ∀ doc, w.document = some doc → IdentifiedBy doc w.row.id) :
    ∀ row ∈ w.apply rows, IdentifiedBy row.2 row.1 := by
  intro row hrow
  rw [RowWrite.apply] at hrow
  split at hrow
  · next doc hdoc =>
      rcases Assoc.eq_or_mem_of_mem_insert hrow with rfl | hmem
      · exact hw doc hdoc
      · exact hrows row hmem
  · exact hrows row (Assoc.mem_erase.mp hrow).1

theorem identified_restore {undo : Undo} (hrows : ∀ row ∈ rows, IdentifiedBy row.2 row.1)
    (hundo : ∀ doc, undo.content = some doc → IdentifiedBy doc undo.row.id) :
    ∀ row ∈ undo.restore rows, IdentifiedBy row.2 row.1 := by
  intro row hrow
  rw [Undo.restore] at hrow
  split at hrow
  · exact hrows row (Assoc.mem_erase.mp hrow).1
  · next place doc hbefore =>
      have hdoc : IdentifiedBy doc undo.row.id := hundo doc (by rw [Undo.content, hbefore]; rfl)
      split at hrow
      · rcases Assoc.eq_or_mem_of_mem_insert hrow with rfl | hmem
        · exact hdoc
        · exact hrows row hmem
      · rcases Assoc.eq_or_mem_of_mem_insertAt hrow with rfl | hmem
        · exact hdoc
        · exact hrows row hmem

theorem identified_unwind {notes : List Undo} {target : CollectionName}
    (hrows : ∀ row ∈ rows, IdentifiedBy row.2 row.1)
    (hnotes : ∀ undo ∈ notes, ∀ doc, undo.content = some doc → IdentifiedBy doc undo.row.id) :
    ∀ row ∈ Undo.unwind notes target rows, IdentifiedBy row.2 row.1 := by
  induction notes generalizing rows with
  | nil => exact hrows
  | cons undo older ih =>
      rw [Undo.unwind_cons]
      refine ih ?_ fun u hu => hnotes u (List.mem_cons_of_mem _ hu)
      split
      · exact identified_restore hrows (hnotes undo List.mem_cons_self)
      · exact hrows

end Rows

namespace Store

variable {store : Store} {session : SessionId} {target : CollectionName}

/-- Every row stands under the text of its identifier, and so does every document that a rollback
may put back. -/
structure Identified (store : Store) : Prop where
  rows : ∀ target rows, store.rows? target = some rows → ∀ row ∈ rows, IdentifiedBy row.2 row.1
  notes : ∀ session, ∀ undo ∈ store.notes session, ∀ doc, undo.content = some doc →
    IdentifiedBy doc undo.row.id

/-! ## The documents of writes -/

theorem Identified.selected (h : store.Identified) {o : Options} {selected : Rows}
    (hselected : store.selectForWrite session target o = .ok selected) :
    ∀ row ∈ selected, IdentifiedBy row.2 row.1 := by
  obtain ⟨rows, hrows, hsub⟩ := subperm_of_selectForWrite hselected
  exact fun row hrow => h.rows target rows hrows row (hsub.subset hrow)

theorem Identified.updatedRows (h : store.Identified) {o : Options} {operations : List Operation}
    {updated : Rows} (hops : ∀ op ∈ operations, op.KeepsObject)
    (hupdated : store.updatedRows session target o operations = .ok updated) :
    ∀ row ∈ updated, IdentifiedBy row.2 row.1 := by
  intro row hrow
  rw [Store.updatedRows] at hupdated
  split at hupdated
  · cases hupdated
  · obtain ⟨selected, hselected, hchanged⟩ := Outcome.bind_eq_ok.mp hupdated
    obtain ⟨old, hold, happly⟩ := mem_of_mem_changedRows hchanged hrow
    obtain ⟨id, hid, hkey⟩ := h.selected hselected _ hold
    exact ⟨id, (Update.id_of_apply hops happly).trans hid, hkey⟩

/-- The documents that a request writes stand under the texts of their identifiers. -/
theorem Identified.writesOf (h : store.Identified) {request : Request}
    (hsent : (Event.request session request).Sent) :
    ∀ w ∈ store.writesOf session request, ∀ doc, w.document = some doc →
      IdentifiedBy doc w.row.id := by
  have hstoring : ∀ {target : CollectionName} {outcome : Except DocError Rows} {w : RowWrite}
      {doc : Document}, (∀ rows, outcome = .ok rows → ∀ row ∈ rows, IdentifiedBy row.2 row.1) →
      w ∈ storing target (rowsOrNone outcome) → w.document = some doc →
      IdentifiedBy doc w.row.id := by
    intro target outcome w doc hrows hw hdoc
    obtain ⟨row, hrow, rfl⟩ := List.mem_map.mp hw
    cases outcome with
    | error e => cases hrow
    | ok rows =>
        cases hdoc
        exact hrows rows rfl row hrow
  intro w hw doc hdoc
  cases request with
  | insert target documents upsert =>
      refine hstoring (fun rows hinserted => ?_) hw hdoc
      rw [insertedRows] at hinserted
      obtain ⟨stored, -, hinserted⟩ := Outcome.bind_eq_ok.mp hinserted
      obtain ⟨prepared, hprepared, hinserted⟩ := Outcome.bind_eq_ok.mp hinserted
      obtain ⟨done, -, hinserted⟩ := Outcome.bind_eq_ok.mp hinserted
      cases hinserted
      exact (prepare_eq_ok_iff.mp hprepared).2.1
  | update target o operations =>
      exact hstoring (fun rows hupdated =>
        h.updatedRows (Operation.Sent.keepsObject hsent) hupdated) hw hdoc
  | delete target o =>
      obtain ⟨row, -, rfl⟩ := List.mem_map.mp hw
      cases hdoc
  | _ => cases hw

/-! ## One event -/

namespace Identified

theorem write (h : store.Identified) {w : RowWrite}
    (hw : ∀ doc, w.document = some doc → IdentifiedBy doc w.row.id) :
    (store.write session w).Identified where
  rows := by
    intro target rows hrows
    rw [rows?_write] at hrows
    split at hrows
    · obtain ⟨before, hbefore, rfl⟩ := Option.map_eq_some_iff.mp hrows
      exact identified_apply (h.rows target before hbefore) hw
    · exact h.rows target rows hrows
  notes := by
    intro other undo hundo doc hdoc
    rcases mem_notes_write hundo with hmem | ⟨rows, hrows, rfl⟩
    · exact h.notes other undo hmem doc hdoc
    · rw [Undo.content_ofRow] at hdoc
      exact h.rows _ rows hrows _ (Assoc.mem_of_get? hdoc)

theorem writeAll (h : store.Identified) {writes : List RowWrite}
    (hwrites : ∀ w ∈ writes, ∀ doc, w.document = some doc → IdentifiedBy doc w.row.id) :
    (store.writeAll session writes).Identified := by
  induction writes generalizing store with
  | nil => exact h
  | cons w rest ih =>
      exact ih (h.write (hwrites w List.mem_cons_self)) fun w' hw' =>
        hwrites w' (List.mem_cons_of_mem _ hw')

/-- Rows that stay and notes that are forgotten stay identified. -/
theorem of_notes (h : store.Identified) {after : Store}
    (hrows : ∀ target, after.rows? target = store.rows? target)
    (hself : after.notes session = [])
    (hothers : ∀ other, other ≠ session → after.session? other = store.session? other) :
    after.Identified where
  rows target rows hafter := h.rows target rows ((hrows target).symm.trans hafter)
  notes other undo hundo := by
    by_cases heq : other = session
    · rw [heq, hself] at hundo
      cases hundo
    · rw [notes_congr (hothers other heq)] at hundo
      exact h.notes other undo hundo

theorem rollback (h : store.Identified) (session : SessionId) :
    (store.rollback session).Identified where
  rows target rows hrows := by
    rw [rows?_rollback] at hrows
    obtain ⟨before, hbefore, rfl⟩ := Option.map_eq_some_iff.mp hrows
    exact identified_unwind (h.rows target before hbefore) (h.notes session)
  notes other undo hundo := by
    by_cases heq : other = session
    · rw [heq, notes_rollback_self] at hundo
      cases hundo
    · rw [notes_congr (session?_rollback_of_ne heq)] at hundo
      exact h.notes other undo hundo

theorem step (h : store.Identified) {event : Event} (hsent : event.Sent) :
    (store.step event).Identified := by
  have heffect := step_effect store event
  generalize store.step event = after at heffect
  cases heffect with
  | nothing => exact h
  | @create _ created _ _ =>
      refine ⟨fun target rows hrows => ?_, h.notes⟩
      rw [rows?] at hrows
      by_cases heq : target = created
      · rw [heq, Assoc.get?_insert_self] at hrows
        cases hrows
        exact List.forall_mem_nil _
      · rw [Assoc.get?_insert_of_ne _ _ heq] at hrows
        exact h.rows target rows hrows
  | @drop _ dropped =>
      refine ⟨fun target rows hrows => ?_, h.notes⟩
      have hrows : Assoc.get? (Assoc.erase store.collections dropped) target = some rows := hrows
      by_cases heq : target = dropped
      · rw [heq, Assoc.get?_erase_self] at hrows
        cases hrows
      · rw [Assoc.get?_erase_of_ne _ heq] at hrows
        exact h.rows target rows hrows
  | lock => exact ⟨h.rows, h.notes⟩
  | write => exact h.writeAll (h.writesOf hsent)
  | begin => exact h.of_notes (fun _ => rfl) notes_begin_self fun _ => session?_begin_of_ne
  | commit =>
      exact h.of_notes (fun _ => rfl) notes_endTransaction_self
        fun _ => session?_endTransaction_of_ne
  | rollback => exact h.rollback _
  | opened => exact h.of_notes (fun _ => rfl) notes_openSession_self fun _ => session?_openSession_of_ne
  | @closed session =>
      refine (h.rollback session).of_notes (fun _ => rfl) notes_closeSession_self fun other hne => ?_
      rw [session?_closeSession_of_ne hne, session?_rollback_of_ne hne]

theorem run (h : store.Identified) {history : List Event} (hsent : ∀ event ∈ history, event.Sent) :
    (store.run history).Identified := by
  induction history generalizing store with
  | nil => exact h
  | cons event rest ih =>
      exact ih (h.step (hsent event List.mem_cons_self))
        fun e he => hsent e (List.mem_cons_of_mem _ he)

end Identified

theorem identified_empty (version : Version) : (empty version).Identified where
  rows _ _ h := nomatch h
  notes _ _ h := nomatch h

/-! ## The main statement -/

/-- After any history of a store whose updates are those that statements send, every row of every
collection has an identifier and stands under the text of it. -/
theorem rows_identified (version : Version) {history : List Event}
    (hsent : ∀ event ∈ history, event.Sent) (target : CollectionName) (rows : Rows)
    (hrows : ((empty version).run history).rows? target = some rows) :
    ∀ row ∈ rows, ∃ id, Assoc.get? row.2 idField = some id ∧ row.1 = id.bareText :=
  ((identified_empty version).run hsent).rows target rows hrows

/-- A document is changed, patched and replaced in a transaction of another session. -/
theorem rows_identified_replaced :
    let books : CollectionName := ⟨"test", "books"⟩
    let change : List Operation := [.set (.ofMember "v") (.literal .null),
      .mergePatch (.obj [("_id", .null), ("w", .null)])]
    let replace : List Operation :=
      [.set ⟨[]⟩ (.literal (.obj [("w", .str "x"), ("_id", .null)]))]
    let history : List Event := [.opened, .opened, .request 0 (.createCollection books false),
      .request 0 (.insert books [.obj [("_id", .bool true), ("w", .null)]] false),
      .request 1 .begin, .request 1 (.update books {} change),
      .request 1 (.update books {} replace)]
    let rows : Rows := [("true", [("_id", .bool true), ("w", .str "x")])]
    (∀ event ∈ history, event.Sent)
      ∧ ((empty ⟨8, 0, 19⟩).run history).rows? books = some rows
      ∧ ∀ row ∈ rows, ∃ id, Assoc.get? row.2 idField = some id ∧ row.1 = id.bareText := by
  intro books change replace history rows
  have hpath : Path.parse "v" = .ok (.ofMember "v") := by with_unfolding_all rfl
  have hsent : ∀ event ∈ history, event.Sent := by
    intro event hevent
    simp only [history, List.mem_cons, List.not_mem_nil, or_false] at hevent
    rcases hevent with rfl | rfl | rfl | rfl | rfl | rfl | rfl
    case inr.inr.inr.inr.inr.inl =>
      refine .inl fun op hop => ?_
      rcases List.mem_cons.mp hop with rfl | hop
      · exact ⟨"v", hpath⟩
      · obtain rfl := List.mem_singleton.mp hop
        exact ⟨_, rfl⟩
    case inr.inr.inr.inr.inr.inr => exact .inr ⟨_, rfl⟩
    all_goals trivial
  have hrows : ((empty ⟨8, 0, 19⟩).run history).rows? books = some rows := by
    dsimp only [history, change, replace, rows, books]
    rfl
  exact ⟨hsent, hrows, rows_identified ⟨8, 0, 19⟩ hsent books rows hrows⟩

end Store

end DocStore
