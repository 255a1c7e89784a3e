/-!
# Computations that may fail

A computation that is put together from several gives a result only if each of them does.
-/

namespace DocStore.Outcome

variable {ε α β : Type}

theorem pure_eq_ok (a : α) : (pure a : Except ε α) = .ok a := rfl

theorem throw_eq_error (e : ε) : (throw e : Except ε α) = .error e := rfl

theorem bind_eq_ok {x : Except ε α} {f : α → Except ε β} {b : β} :
    (x >>= f) = .ok b ↔ ∃ a, x = .ok a ∧ f a = .ok b := by
  constructor
  · intro h
    cases x with
    | error e => cases h
    | ok a => exact ⟨a, rfl, h⟩
  · rintro ⟨a, rfl, h⟩
    exact h

theorem map_eq_ok {x : Except ε α} {f : α → β} {b : β} :
    x.map f = .ok b ↔ ∃ a, x = .ok a ∧ f a = b := by
  constructor
  · intro h
    cases x with
    | error e => cases h
    | ok a => exact ⟨a, rfl, Except.ok.inj h⟩
  · rintro ⟨a, rfl, rfl⟩
    rfl

theorem toOption_bind (x : Except ε α) (f : α → Except ε β) :
    (x >>= f).toOption = x.toOption.bind fun a => (f a).toOption := by
  cases x <;> rfl

/-- A result that passes a test can be found by computation, also where results cannot be compared. -/
theorem exists_eq_ok (x : Except ε α) (test : α → Bool) (h : x.toOption.any test = true) :
    ∃ a, x = .ok a ∧ test a = true := by
  cases x with
  | error e => cases h
  | ok a => exact ⟨a, rfl, h⟩

/-- What holds of each result holds of all of them. -/
theorem forall_mem_of_mapM {f : α → Except ε β} {P : β → Prop} {as : List α} {bs : List β}
    (h : ∀ a ∈ as, ∀ b, f a = .ok b → P b) (hbs : as.mapM f = .ok bs) : ∀ b ∈ bs, P b := by
  induction as generalizing bs with
  | nil =>
      cases hbs
      exact fun _ hb => nomatch hb
  | cons a rest ih =>
      rw [List.mapM_cons] at hbs
      obtain ⟨b, hb, hbs⟩ := bind_eq_ok.mp hbs
      obtain ⟨more, hmore, hbs⟩ := bind_eq_ok.mp hbs
      cases hbs
      obtain ⟨ha, hrest⟩ := List.forall_mem_cons.mp h
      exact List.forall_mem_cons.mpr ⟨ha b hb, ih hrest hmore⟩

theorem length_of_mapM {f : α → Except ε β} {as : List α} {bs : List β}
    (h : as.mapM f = .ok bs) : bs.length = as.length := by
  induction as generalizing bs with
  | nil =>
      cases h
      rfl
  | cons a rest ih =>
      rw [List.mapM_cons] at h
      obtain ⟨b, -, h⟩ := bind_eq_ok.mp h
      obtain ⟨more, hmore, h⟩ := bind_eq_ok.mp h
      cases h
      rw [List.length_cons, List.length_cons, ih hmore]

/-- The front and the rest of a list have the front and the rest of its results. -/
theorem split_of_mapM {f : α → Except ε β} {as : List α} {bs : List β} (h : as.mapM f = .ok bs)
    (n : Nat) : (as.take n).mapM f = .ok (bs.take n) ∧ (as.drop n).mapM f = .ok (bs.drop n) := by
  induction as generalizing bs n with
  | nil =>
      cases h
      cases n <;> exact ⟨rfl, rfl⟩
  | cons a rest ih =>
      cases n with
      | zero => exact ⟨rfl, h⟩
      | succ n =>
          rw [List.mapM_cons] at h
          obtain ⟨b, hb, h⟩ := bind_eq_ok.mp h
          obtain ⟨more, hmore, h⟩ := bind_eq_ok.mp h
          cases h
          obtain ⟨hfront, hback⟩ := ih hmore n
          refine ⟨?_, hback⟩
          rw [List.take_succ_cons, List.mapM_cons, hb, hfront]
          rfl

theorem mapM_eq_ok_map {f : α → Except ε β} {g : α → β} {as : List α}
    (h : ∀ a ∈ as, f a = .ok (g a)) : as.mapM f = .ok (as.map g) := by
  induction as with
  | nil => rfl
  | cons a rest ih =>
      obtain ⟨ha, hrest⟩ := List.forall_mem_cons.mp h
      rw [List.mapM_cons, ha, ih hrest]
      rfl

theorem forall_of_mapM {f : α → Except ε β} {P : β → Prop}
    (h : ∀ a b, f a = .ok b → P b) {as : List α} {bs : List β} (hbs : as.mapM f = .ok bs) :
    ∀ b ∈ bs, P b :=
  forall_mem_of_mapM (fun a _ => h a) hbs

end DocStore.Outcome
