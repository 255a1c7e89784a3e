import DocStore.Client.Collection
import DocStore.Proofs.Client.Settings
import DocStore.Proofs.Store.RowKeys

/-!
# Updates that statements send

Every update that a client's statement sends is one of those that keep rows under the texts of their
identifiers (`Operation.Sent`): that of a statement that modifies, whatever calls have been made on
it (`sent_of_modify`), and the one that puts a document in the place of another (`sent_of_replace`).
-/

namespace DocStore

namespace Operation

/-- Binding placeholders leaves the paths and the documents to merge alone. -/
theorem OfCall.mapValue {op : Operation} (h : op.OfCall) (f : Expr → Expr) :
    (op.mapValue f).OfCall := by
  cases op <;> exact h

end Operation

/-! ## What calls add -/

namespace Call

open Statement

variable {purpose : Purpose} {settings : Settings}

theorem ofCall_of_setting {call : Call purpose} {setting : Setting}
    (h : call.setting settings = .ok setting) : ∀ op ∈ setting.added, op.OfCall := by
  cases call with
  | unset paths =>
      obtain ⟨ops, hops, hsetting⟩ := Outcome.bind_eq_ok.mp h
      cases hsetting
      refine Outcome.forall_of_mapM (fun path op hop => ?_) hops
      obtain ⟨place, hplace, hop⟩ := Outcome.bind_eq_ok.mp hop
      cases hop
      exact ⟨path, readText_eq_ok_iff.mp hplace⟩
  | _ =>
      cases setting with
      | operations more =>
          grind [Call.setting, Setting.added, Operation.OfCall, Outcome.bind_eq_ok,
            Outcome.pure_eq_ok, Outcome.throw_eq_error, readText_eq_ok_iff]
      | _ => exact List.forall_mem_nil _

theorem ofCall_of_settled (calls : List (Call purpose)) :
    ∀ op ∈ (settled calls).operations, op.OfCall := by
  suffices ∀ settings : Settings, (∀ op ∈ settings.operations, op.OfCall) →
      ∀ op ∈ (calls.foldl extend settings).operations, op.OfCall from this [] nofun
  induction calls with
  | nil => exact fun _ h => h
  | cons call rest ih =>
      refine fun settings h => ih _ ?_
      cases hsetting : call.setting settings with
      | error e =>
          rw [extend, hsetting, Except.toOption, Option.toList_none, List.append_nil]
          exact h
      | ok setting =>
          rw [extend, hsetting, Except.toOption, Option.toList_some, Settings.operations_append]
          exact List.forall_mem_append.mpr ⟨h, ofCall_of_setting hsetting⟩

end Call

/-! ## Requests -/

namespace Statement

variable (session : SessionId) (collection : Collection)

theorem sent_of_modify (filter : Option Expr) (calls : List (Call .modify)) :
    (Event.request session
      (performAll (ofFilter collection filter) calls).modifyRequest.1).Sent := by
  have hfollows := (Follows.ofFilter collection filter).performAll calls
  refine .inl fun op hop => ?_
  obtain ⟨queued, hqueued, rfl⟩ := List.mem_map.mp hop
  rw [hfollows.operations] at hqueued
  exact (Call.ofCall_of_settled calls queued hqueued).mapValue _

theorem sent_of_replace (id : Value) (doc : Document) :
    (Event.request session ((collection.byId id).replaceWith doc).modifyRequest.1).Sent :=
  .inr ⟨doc, rfl⟩

end Statement

end DocStore
