import DocStore.Client.Basic

/-!
# Running client actions

What an action answers and what it leaves behind, one equation for each way in which actions are made.
-/

namespace DocStore.Client

variable {σ α β : Type} {connection : Connection σ} {state : ClientState σ}

theorem run_pure (a : α) : (pure a : Client σ α).run connection state = (.ok a, state) := rfl

theorem run_bind (action : Client σ α) (f : α → Client σ β) :
    (action >>= f).run connection state =
      match action.run connection state with
      | (.ok a, after) => (f a).run connection after
      | (.error e, after) => (.error e, after) := by
  simp only [run, ReaderT.run_bind, ExceptT.run_bind, StateT.run_bind]
  generalize StateT.run (ReaderT.run action connection).run state = result
  obtain ⟨outcome, after⟩ := result
  cases outcome <;> rfl

theorem run_ofExcept (outcome : Except DocError α) :
    (ofExcept outcome : Client σ α).run connection state = (outcome, state) := by
  cases outcome <;> rfl

theorem run_send (request : Request) :
    (send request).run connection state =
      ((connection.send request state.server).1,
        { state with server := (connection.send request state.server).2 }) := rfl

theorem run_withIds (draw : Clock → Identity → α × Identity) :
    (withIds draw : Client σ α).run connection state =
      (.ok (draw state.clock state.ids).1,
        { state with ids := (draw state.clock state.ids).2 }) := rfl

theorem run_attempt (action : Client σ α) :
    action.attempt.run connection state =
      (.ok (action.run connection state).1, (action.run connection state).2) := rfl

end DocStore.Client
