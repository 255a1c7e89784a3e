import DocStore.Proofs.Assoc
import DocStore.Store.Lock

/-!
# Sound lock tables

A lock table is *sound* if no row has two entries and each entry lists sessions that may hold their
locks together: some session, none of them twice, and nobody beside the holder of an exclusive lock.

Taking a lock that the locks of others do not keep from a session, releasing all locks of a session
and forgetting a collection leave a table sound, and they leave alone what they are not about: a
lock is lost only by its holder's release or with its collection.
-/

namespace DocStore

namespace Holders

variable {holders : Holders} {session : SessionId} {wanted : RowLock}

/-- The holders of the locks on one row may hold them together. -/
structure Sound (holders : Holders) : Prop where
  held : holders ≠ []
  distinct : (Assoc.keys holders).Nodup
  /-- Nobody holds a lock beside an exclusive one. -/
  alone {session : SessionId} :
    (session, RowLock.exclusive) ∈ holders → ∀ holder ∈ holders, holder.1 = session

/-- Where nothing is in the way of a lock, others hold shared locks only, and none at all if the
lock is to be exclusive. -/
theorem others_of_free (h : holders.conflict session wanted = false) {holder : SessionId × RowLock}
    (hmem : holder ∈ holders) (hne : holder.1 ≠ session) :
    wanted = .shared ∧ holder.2 = .shared := by
  have hnone := List.any_eq_false.mp h holder hmem
  obtain ⟨other, lock⟩ := holder
  cases wanted <;> cases lock <;> simp_all [RowLock.excludes]

theorem conflict_eq_false_iff :
    holders.conflict session wanted = false
      ↔ ∀ holder ∈ holders, holder.1 ≠ session → wanted.excludes holder.2 = false := by
  simp [conflict, List.any_eq_false]

/-- What a session holds itself is never in its way. -/
theorem conflict_acquire (given wanted : RowLock) :
    (holders.acquire session given).conflict session wanted = holders.conflict session wanted := by
  rw [Bool.eq_iff_iff, ← not_iff_not, Bool.not_eq_true, Bool.not_eq_true, conflict_eq_false_iff,
    conflict_eq_false_iff]
  constructor
  · intro h holder hmem hne
    exact h holder ((Assoc.mem_insert_of_ne hne).mpr hmem) hne
  · intro h holder hmem hne
    exact h holder ((Assoc.mem_insert_of_ne hne).mp hmem) hne

/-- An exclusive lock comes of asking for one or of having one. -/
theorem exclusive_of_strongest {own : Option RowLock}
    (h : (match own with | some lock => lock.max wanted | none => wanted) = .exclusive) :
    wanted = .exclusive ∨ own = some .exclusive := by
  cases own with
  | none => exact .inl h
  | some lock =>
      cases lock <;> cases wanted <;> simp_all [RowLock.max, RowLock.covers, RowLock.code]

theorem Sound.acquire (h : holders = [] ∨ holders.Sound)
    (hfree : holders.conflict session wanted = false) : (holders.acquire session wanted).Sound := by
  have hdistinct : (Assoc.keys holders).Nodup := by
    rcases h with rfl | h
    · exact List.nodup_nil
    · exact h.distinct
  refine ⟨Assoc.insert_ne_nil _ _ _, Assoc.nodup_keys_insert _ _ hdistinct, ?_⟩
  intro owner howner holder hholder
  rcases Assoc.mem_insert hdistinct howner with heq | ⟨hmem, hne⟩
  · -- The session has the exclusive lock now, so nobody else had a lock before.
    obtain ⟨rfl, hstrong⟩ := Prod.mk.injEq .. ▸ heq
    rcases Assoc.mem_insert hdistinct hholder with heq' | ⟨hmem, hne⟩
    · rw [heq']
    · exfalso
      obtain ⟨hshared, -⟩ := others_of_free hfree hmem hne
      rcases exclusive_of_strongest hstrong.symm with hex | hown
      · rw [hshared] at hex
        cases hex
      · have hin := Assoc.mem_of_get? hown
        rcases h with rfl | h
        · cases hin
        · exact hne (h.alone hin holder hmem)
  · obtain ⟨-, hshared⟩ := others_of_free hfree hmem hne
    cases hshared

/-- Nobody else can take a lock beside an exclusive one. -/
theorem conflict_of_exclusive {other : SessionId} (h : (session, RowLock.exclusive) ∈ holders)
    (hne : session ≠ other) : holders.conflict other wanted = true := by
  refine List.any_eq_true.mpr ⟨_, h, ?_⟩
  cases wanted <;> simp [hne, RowLock.excludes]

/-- Every lock is in the way of an exclusive one. -/
theorem conflict_exclusive {other : SessionId} {lock : RowLock} (h : (other, lock) ∈ holders)
    (hne : other ≠ session) : holders.conflict session .exclusive = true :=
  List.any_eq_true.mpr ⟨_, h, by simp [hne, RowLock.excludes]⟩

theorem mem_acquire_exclusive :
    (session, RowLock.exclusive) ∈ holders.acquire session .exclusive := by
  have hself : Assoc.get? (holders.acquire session .exclusive) session = some .exclusive := by
    rw [Holders.acquire, Assoc.get?_insert_self]
    cases Assoc.get? holders session with
    | none => rfl
    | some lock => cases lock <;> rfl
  exact Assoc.mem_of_get? hself

/-- A session that has the exclusive lock keeps it, whatever it asks for next. -/
theorem exclusive_acquire_self (hd : (Assoc.keys holders).Nodup)
    (h : (session, RowLock.exclusive) ∈ holders) :
    (session, RowLock.exclusive) ∈ holders.acquire session wanted := by
  have hown := Assoc.get?_of_mem hd h
  have hself : Assoc.get? (holders.acquire session wanted) session = some .exclusive := by
    rw [Holders.acquire, Assoc.get?_insert_self, hown]
    cases wanted <;> rfl
  exact Assoc.mem_of_get? hself

theorem Sound.erase (h : holders.Sound) (hne : Assoc.erase holders session ≠ []) :
    Sound (Assoc.erase holders session) where
  held := hne
  distinct := Assoc.nodup_keys_erase session h.distinct
  alone hmem holder hholder :=
    h.alone (Assoc.mem_erase.mp hmem).1 holder (Assoc.mem_erase.mp hholder).1

end Holders

namespace LockTable

variable {locks : LockTable} {session : SessionId} {wanted : RowLock} {key : RowKey}

structure Sound (locks : LockTable) : Prop where
  rows : (Assoc.keys locks).Nodup
  holders : ∀ entry ∈ locks, Holders.Sound entry.2

theorem sound_nil : Sound [] := ⟨List.nodup_nil, fun _ h => nomatch h⟩

theorem holders_of_mem {hs : Holders} (h : locks.Sound) (hmem : (key, hs) ∈ locks) :
    locks.holders key = hs := by
  rw [holders, Assoc.get?_of_mem h.rows hmem]
  rfl

/-- The holders of a row's locks are those of its entry; without an entry there are none. -/
theorem holders_cases (locks : LockTable) (key : RowKey) :
    locks.holders key = [] ∨ (key, locks.holders key) ∈ locks := by
  rw [holders]
  cases h : Assoc.get? locks key with
  | none => exact .inl rfl
  | some hs => exact .inr (Assoc.mem_of_get? h)

theorem mem_of_mem_holders {holder : SessionId × RowLock} (h : holder ∈ locks.holders key) :
    (key, locks.holders key) ∈ locks := by
  rcases holders_cases locks key with hnil | hmem
  · rw [hnil] at h
    cases h
  · exact hmem

theorem Sound.holders_distinct (h : locks.Sound) (key : RowKey) :
    (Assoc.keys (locks.holders key)).Nodup := by
  rcases holders_cases locks key with hnil | hmem
  · rw [hnil]
    exact List.nodup_nil
  · exact (h.holders _ hmem).distinct

/-! ## Taking locks -/

theorem holders_acquire (other : RowKey) :
    (locks.acquire session wanted key).holders other
      = if other = key then (locks.holders key).acquire session wanted
        else locks.holders other := by
  rw [acquire, holders]
  split
  · next heq => rw [heq, Assoc.get?_insert_self, Option.getD_some]
  · next hne => rw [Assoc.get?_insert_of_ne _ _ hne, holders]

theorem conflict_acquire (other : RowKey) (given : RowLock) :
    (locks.acquire session given key).conflict other session wanted
      = locks.conflict other session wanted := by
  rw [conflict, holders_acquire]
  split
  · next heq => rw [Holders.conflict_acquire, heq, conflict]
  · rfl

theorem Sound.acquire (h : locks.Sound) (hfree : locks.conflict key session wanted = false) :
    (locks.acquire session wanted key).Sound where
  rows := Assoc.nodup_keys_insert _ _ h.rows
  holders entry hentry := by
    rcases Assoc.mem_insert h.rows hentry with rfl | ⟨hmem, -⟩
    · exact .acquire ((holders_cases locks key).imp_right (h.holders _)) hfree
    · exact h.holders entry hmem

theorem exclusive_acquire (h : locks.Sound) {owner : SessionId} {row : RowKey}
    (hlock : (owner, RowLock.exclusive) ∈ locks.holders row)
    (hfree : locks.conflict key session wanted = false) :
    (owner, RowLock.exclusive) ∈ (locks.acquire session wanted key).holders row := by
  rw [holders_acquire]
  split
  · next heq =>
      subst heq
      by_cases hown : owner = session
      · subst hown
        exact Holders.exclusive_acquire_self (h.holders_distinct row) hlock
      · -- The exclusive lock of another would have been in the way.
        rw [conflict, Holders.conflict_of_exclusive hlock hown] at hfree
        cases hfree
  · exact hlock

/-- What holds of a table and of what taking a free lock makes of it holds once many are taken. -/
theorem acquireAll_induction {motive : LockTable → Prop} {keys : List RowKey}
    (hfree : ∀ key ∈ keys, locks.conflict key session wanted = false) (start : motive locks)
    (next : ∀ {locks : LockTable} {key : RowKey}, key ∈ keys →
      locks.conflict key session wanted = false → motive locks →
      motive (locks.acquire session wanted key)) :
    motive (locks.acquireAll session wanted keys) := by
  induction keys generalizing locks with
  | nil => exact start
  | cons key rest ih =>
      have hkey := hfree key List.mem_cons_self
      refine ih ?_ (next List.mem_cons_self hkey start)
        fun hmem => next (List.mem_cons_of_mem _ hmem)
      intro other hother
      rw [conflict_acquire]
      exact hfree other (List.mem_cons_of_mem _ hother)

/-! ## Letting locks go -/

theorem mem_release {entry : RowKey × Holders} :
    entry ∈ locks.release session
      ↔ ∃ hs, (entry.1, hs) ∈ locks ∧ Assoc.erase hs session = entry.2 ∧ entry.2 ≠ [] := by
  rw [release, List.mem_filterMap]
  constructor
  · rintro ⟨⟨row, hs⟩, hmem, heq⟩
    simp only at heq
    split at heq
    · cases heq
    · next hne =>
        cases heq
        exact ⟨hs, hmem, rfl, by simpa [List.isEmpty_iff] using hne⟩
  · rintro ⟨hs, hmem, heq, hne⟩
    refine ⟨(entry.1, hs), hmem, ?_⟩
    simp only
    rw [heq, if_neg (by simpa [List.isEmpty_iff] using hne)]

theorem keys_release_sublist (locks : LockTable) (session : SessionId) :
    (Assoc.keys (locks.release session)).Sublist (Assoc.keys locks) := by
  induction locks with
  | nil => exact List.Sublist.refl _
  | cons entry rest ih =>
      rw [release, List.filterMap_cons]
      simp only
      split
      · next heq => exact ih.cons entry.1
      · next kept heq =>
          split at heq
          · cases heq
          · cases heq
            exact ih.cons_cons entry.1

theorem Sound.release (h : locks.Sound) (session : SessionId) : (locks.release session).Sound where
  rows := h.rows.sublist (keys_release_sublist locks session)
  holders entry hentry := by
    obtain ⟨hs, hmem, heq, hne⟩ := mem_release.mp hentry
    rw [← heq] at hne ⊢
    exact (h.holders _ hmem).erase hne

/-- A release takes no lock from anybody else. -/
theorem mem_holders_release (h : locks.Sound) {holder : SessionId × RowLock}
    (hlock : holder ∈ locks.holders key) (hne : holder.1 ≠ session) :
    holder ∈ (locks.release session).holders key := by
  have hkept : holder ∈ Assoc.erase (locks.holders key) session := Assoc.mem_erase.mpr ⟨hlock, hne⟩
  have hentry : (key, Assoc.erase (locks.holders key) session) ∈ locks.release session :=
    mem_release.mpr ⟨_, mem_of_mem_holders hlock, rfl, List.ne_nil_of_mem hkept⟩
  rw [holders_of_mem (h.release session) hentry]
  exact hkept

theorem not_mem_holders_release (locks : LockTable) (session : SessionId) (key : RowKey) :
    session ∉ Assoc.keys ((locks.release session).holders key) := by
  rcases holders_cases (locks.release session) key with hnil | hmem
  · rw [hnil]
    exact List.not_mem_nil
  · obtain ⟨hs, -, heq, -⟩ := mem_release.mp hmem
    have hself : session ∉ Assoc.keys (Assoc.erase hs session) :=
      Assoc.get?_eq_none_iff.mp (Assoc.get?_erase_self hs session)
    rwa [heq] at hself

theorem Sound.forget (h : locks.Sound) (target : CollectionName) : (locks.forget target).Sound where
  rows := h.rows.sublist (List.filter_sublist.map Prod.fst)
  holders entry hentry := h.holders entry (List.mem_filter.mp hentry).1

theorem mem_holders_forget (h : locks.Sound) {target : CollectionName}
    {holder : SessionId × RowLock} (hlock : holder ∈ locks.holders key)
    (hne : key.collection ≠ target) : holder ∈ (locks.forget target).holders key := by
  have hentry : (key, locks.holders key) ∈ locks.forget target :=
    List.mem_filter.mpr ⟨mem_of_mem_holders hlock, by simp [hne]⟩
  rw [holders_of_mem (h.forget target) hentry]
  exact hlock

end LockTable

end DocStore
