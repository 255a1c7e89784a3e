import DocStore.Proofs.Store.Locking
import DocStore.Proofs.Store.Selection

/-!
# Locking reads

Which rows a read with a lock directive gives, which locks it leaves behind, and how it fails.  Main
statements: `locking_read_outcome`, for reads whose filter can be evaluated, and
`failed_find_keeps_iff`, for reads that fail.

The rows in question are those that the filter lets through and on which another session has a lock
in the way (`Contested`).  They fail the read or are left out of it, before any lock is taken.  The
others are locked before the results are computed from them, so the locks stay if that fails.
-/

namespace DocStore

/-! ## The locks of one session -/

namespace RowLock

variable {before : Option RowLock} {held wanted : RowLock}

/-- The lock of a session that has been given one beside what it had before. -/
def raise (before : Option RowLock) (wanted : RowLock) : RowLock :=
  match before with
  | some held => held.max wanted
  | none => wanted

theorem covers_raise (before : Option RowLock) (wanted : RowLock) :
    (raise before wanted).covers wanted = true := by
  cases before with
  | none => cases wanted <;> rfl
  | some held => cases held <;> cases wanted <;> rfl

theorem covers_raise_some (held wanted : RowLock) : (raise (some held) wanted).covers held = true := by
  cases held <;> cases wanted <;> rfl

theorem raise_raise (before : Option RowLock) (wanted : RowLock) :
    raise (some (raise before wanted)) wanted = raise before wanted := by
  cases before with
  | none => cases wanted <;> rfl
  | some held => cases held <;> cases wanted <;> rfl

theorem raise_of_covers (h : held.covers wanted = true) : raise (some held) wanted = held := by
  cases held <;> cases wanted <;> first | rfl | cases h

end RowLock

namespace LockTable

variable {locks : LockTable} {session other : SessionId} {wanted held : RowLock} {key row : RowKey}
  {keys : List RowKey}

/-- The lock that a session has on a row. -/
def held? (locks : LockTable) (session : SessionId) (key : RowKey) : Option RowLock :=
  Assoc.get? (locks.holders key) session

theorem held?_acquire : (locks.acquire session wanted key).held? other row
    = if other = session ∧ row = key then some (RowLock.raise (locks.held? session row) wanted)
      else locks.held? other row := by
  rw [held?, holders_acquire]
  by_cases hrow : row = key
  · subst hrow
    rw [if_pos rfl, Holders.acquire]
    by_cases hother : other = session
    · subst hother
      rw [if_pos ⟨rfl, rfl⟩, Assoc.get?_insert_self]
      rfl
    · rw [if_neg fun h => hother h.1, Assoc.get?_insert_of_ne _ _ hother]
      rfl
  · rw [if_neg hrow, if_neg fun h => hrow h.2]
    rfl

/-- A session that is given locks on some rows has them, and nothing else changes. -/
theorem held?_acquireAll : (locks.acquireAll session wanted keys).held? other row
    = if other = session ∧ row ∈ keys then some (RowLock.raise (locks.held? session row) wanted)
      else locks.held? other row := by
  induction keys generalizing locks with
  | nil => simp [acquireAll]
  | cons key rest ih =>
      have hnext : (locks.acquireAll session wanted (key :: rest)).held? other row
          = ((locks.acquire session wanted key).acquireAll session wanted rest).held? other row := rfl
      rw [hnext, ih, held?_acquire, held?_acquire]
      by_cases hother : other = session
      · subst hother
        by_cases hrow : row = key
        · subst hrow
          -- A row that comes again is not raised any further.
          simp [RowLock.raise_raise]
        · simp [hrow]
      · simp [hother]

/-- A lock that covers the one that is asked for stays as it is. -/
theorem acquire_of_covers (hheld : locks.held? session key = some held)
    (hcovers : held.covers wanted = true) : locks.acquire session wanted key = locks := by
  have hholders : (locks.holders key).acquire session wanted = locks.holders key := by
    have hraise : (locks.holders key).acquire session wanted
        = Assoc.insert (locks.holders key) session (RowLock.raise (locks.held? session key) wanted) :=
      rfl
    rw [hraise, hheld, RowLock.raise_of_covers hcovers]
    exact Assoc.insert_of_get? hheld
  have hentry : Assoc.get? locks key = some (locks.holders key) := by
    cases hget : Assoc.get? locks key with
    | none =>
        rw [held?, holders, hget] at hheld
        cases hheld
    | some hs => rw [holders, hget, Option.getD_some]
  rw [acquire, hholders]
  exact Assoc.insert_of_get? hentry

/-- Asking for locks changes nothing exactly if the session has them all. -/
theorem acquireAll_eq_self_iff : locks.acquireAll session wanted keys = locks
    ↔ ∀ key ∈ keys, ∃ held, locks.held? session key = some held ∧ held.covers wanted = true := by
  constructor
  · intro h key hkey
    refine ⟨_, ?_, RowLock.covers_raise (locks.held? session key) wanted⟩
    have hheld : (locks.acquireAll session wanted keys).held? session key = _ := held?_acquireAll
    rwa [if_pos ⟨rfl, hkey⟩, h] at hheld
  · intro h
    induction keys with
    | nil => rfl
    | cons key rest ih =>
        obtain ⟨held, hheld, hcovers⟩ := h key List.mem_cons_self
        show (locks.acquire session wanted key).acquireAll session wanted rest = locks
        rw [acquire_of_covers hheld hcovers]
        exact ih fun key hkey => h key (List.mem_cons_of_mem _ hkey)

/-- What is in the way of a lock are the locks that others have. -/
theorem conflict_iff (h : locks.Sound) : locks.conflict key session wanted = true
    ↔ ∃ other held, other ≠ session ∧ locks.held? other key = some held
      ∧ (wanted = .exclusive ∨ held = .exclusive) := by
  simp only [conflict, Holders.conflict, List.any_eq_true, Bool.and_eq_true, bne_iff_ne,
    RowLock.excludes, Bool.or_eq_true, beq_iff_eq]
  constructor
  · rintro ⟨⟨other, held⟩, hmem, hne, hexcludes⟩
    exact ⟨other, held, hne, Assoc.get?_of_mem (h.holders_distinct key) hmem, hexcludes⟩
  · rintro ⟨other, held, hne, hheld, hexcludes⟩
    exact ⟨(other, held), Assoc.mem_of_get? hheld, hne, hexcludes⟩

end LockTable

/-- The outcome is an error under a code of the server. -/
def FailsWith {α : Type} (outcome : Except DocError α) (code : UInt32) : Prop :=
  ∃ e, outcome = .error e ∧ e.serverCode? = some code

namespace Store

variable {store : Store} {session : SessionId} {target : CollectionName} {o : Options}
  {lock : LockDirective} {wanted : RowLock} {key : RowKey}

def held? (store : Store) (session : SessionId) (key : RowKey) : Option RowLock :=
  store.locks.held? session key

/-- Another session has a lock on the row that is in the way of the wanted one. -/
def Contested (store : Store) (session : SessionId) (wanted : RowLock) (key : RowKey) : Prop :=
  ∃ other held, other ≠ session ∧ store.held? other key = some held
    ∧ (wanted = .exclusive ∨ held = .exclusive)

instance : Decidable (store.Contested session wanted key) :=
  decidable_of_iff (∃ holder ∈ store.locks.holders key, holder.1 ≠ session
      ∧ store.held? holder.1 key = some holder.2 ∧ (wanted = .exclusive ∨ holder.2 = .exclusive))
    ⟨fun ⟨holder, _, h⟩ => ⟨holder.1, holder.2, h⟩,
      fun ⟨other, held, h⟩ => ⟨(other, held), Assoc.mem_of_get? h.2.1, h⟩⟩

/-! ## The rows of a read -/

/-- The rows of a collection; none if there is no such collection. -/
def stored (store : Store) (target : CollectionName) : Rows := (store.rows? target).getD []

/-- The rows that the filter lets through. -/
def matched (store : Store) (target : CollectionName) (o : Options) : Rows :=
  (store.stored target).filter fun row =>
    (Expr.passes o.filter (.obj row.2)).toOption = some true

/-- The rows that the filter lets through and that no other session keeps from being locked. -/
def uncontested (store : Store) (session : SessionId) (target : CollectionName) (o : Options)
    (lock : LockDirective) : Rows :=
  (store.matched target o).filter fun row => ¬store.Contested session lock.rowLock ⟨target, row.1⟩

/-- The filter can be evaluated on every row. -/
def Evaluates (store : Store) (target : CollectionName) (o : Options) : Prop :=
  ∀ row ∈ store.stored target, ∃ passes, Expr.passes o.filter (.obj row.2) = .ok passes

theorem filterRows_of_passes {filter : Option Expr} {rows : Rows}
    (h : ∀ row ∈ rows, ∃ passes, Expr.passes filter (.obj row.2) = .ok passes) :
    filterRows filter rows = .ok (rows.filter fun row =>
      (Expr.passes filter (.obj row.2)).toOption = some true) := by
  induction rows with
  | nil => rfl
  | cons row rest ih =>
      obtain ⟨passes, hpasses⟩ := h row List.mem_cons_self
      have hrest := ih fun row hrow => h row (List.mem_cons_of_mem _ hrow)
      rw [filterRows, hpasses, hrest, List.filter_cons, hpasses]
      cases passes <;> rfl

/-- An old server heeds no option. -/
theorem contentionError?_of_old {version : Version}
    (h : version.supports Version.lockContention = false) (option : Option LockOption) :
    contentionError? version option = some lockWaitTimeout := by
  simp [contentionError?, h]

theorem contentionError?_of_new {version : Version}
    (h : version.supports Version.lockContention = true) (option : Option LockOption) :
    contentionError? version option
      = match option with
        | none => some lockWaitTimeout
        | some .noWait => some lockNotAcquired
        | some .skipLocked => none :=
  if_pos h

/-- What the lock step does: a contested row fails it, unless such rows are to be left out. -/
theorem lockable_eq (h : store.LocksSound) (rows : Rows) :
    store.lockable session target lock rows
      = match contentionError? store.version lock.option with
        | some e =>
          if ∃ row ∈ rows, store.Contested session lock.rowLock ⟨target, row.1⟩ then .error e
          else .ok rows
        | none => .ok (rows.filter fun row =>
            ¬store.Contested session lock.rowLock ⟨target, row.1⟩) := by
  have hconflict : ∀ row : String × Document,
      store.locks.conflict ⟨target, row.1⟩ session lock.rowLock
        = decide (store.Contested session lock.rowLock ⟨target, row.1⟩) := by
    intro row
    rw [Bool.eq_iff_iff, decide_eq_true_iff]
    exact LockTable.conflict_iff h.table
  rw [lockable]
  simp only [hconflict]
  cases contentionError? store.version lock.option with
  | none => simp
  | some e =>
      dsimp only
      congr 1
      simp

/-! ## What a read does to the store -/

/-- What a read does once its rows are known. -/
theorem execute_find_of_matchedRows {lock : Option LockDirective} {rows : Rows}
    (h : store.matchedRows session target o lock = .ok rows) :
    store.execute session (.find target o lock)
      = (store.results target o rows, store.lockRows session target lock rows) := by
  rw [execute, find, h]

theorem execute_find_of_error {lock : Option LockDirective} {e : DocError}
    (h : store.matchedRows session target o lock = .error e) :
    store.execute session (.find target o lock) = (.error e, store) := by
  rw [execute, find, h]

theorem locks_lockRows (target : CollectionName) (lock : LockDirective) (rows : Rows)
    (hin : store.inTransaction session = true) :
    (store.lockRows session target (some lock) rows).locks
      = store.locks.acquireAll session lock.rowLock (keysOf target rows) := by
  rw [lockRows]
  simp [hin]

theorem lockRows_outside (target : CollectionName) (lock : Option LockDirective) (rows : Rows)
    (hout : store.inTransaction session = false) : store.lockRows session target lock rows = store := by
  cases lock with
  | none => rfl
  | some directive =>
      rw [lockRows]
      simp [hout]

theorem lockRows_confined (rows : Rows) (lock : Option LockDirective) :
    store.lockRows session target lock rows
      = { store with locks := (store.lockRows session target lock rows).locks } := by
  cases lock with
  | none => rfl
  | some directive =>
      rw [lockRows]
      split <;> rfl

/-- The locks that a read leaves behind. -/
theorem held?_lockRows {rows : Rows} {other : SessionId} :
    (store.lockRows session target (some lock) rows).held? other key
      = if store.inTransaction session = true ∧ other = session ∧ key ∈ keysOf target rows then
          some (RowLock.raise (store.held? session key) lock.rowLock)
        else store.held? other key := by
  by_cases hin : store.inTransaction session = true
  · rw [held?, locks_lockRows _ _ _ hin, LockTable.held?_acquireAll]
    simp [hin, held?]
  · rw [lockRows_outside _ _ _ (Bool.not_eq_true _ ▸ hin), if_neg fun h => hin h.1]

/-- All that a read can change is the lock table. -/
theorem execute_find_confined (target : CollectionName) (o : Options) (lock : Option LockDirective) :
    (store.execute session (.find target o lock)).2
      = { store with locks := (store.execute session (.find target o lock)).2.locks } := by
  cases hstep : store.matchedRows session target o lock with
  | error e => rw [execute_find_of_error hstep]
  | ok rows =>
      rw [execute_find_of_matchedRows hstep]
      exact lockRows_confined rows lock

/-- Outside a transaction a read changes nothing. -/
theorem execute_find_outside (target : CollectionName) (o : Options) (lock : Option LockDirective)
    (hout : store.inTransaction session = false) :
    (store.execute session (.find target o lock)).2 = store := by
  cases hstep : store.matchedRows session target o lock with
  | error e => rw [execute_find_of_error hstep]
  | ok rows =>
      rw [execute_find_of_matchedRows hstep]
      exact lockRows_outside target lock rows hout

/-- A read leaves the store as it is exactly if it asks for no locks, or outside of a transaction, or
if its session has them all. -/
theorem lockRows_eq_self_iff {lock : Option LockDirective} {rows : Rows} :
    store.lockRows session target lock rows = store
      ↔ ∀ directive, lock = some directive → store.inTransaction session = true →
        ∀ row ∈ rows, ∃ held, store.held? session ⟨target, row.1⟩ = some held
          ∧ held.covers directive.rowLock = true := by
  cases lock with
  | none => exact iff_of_true rfl nofun
  | some directive =>
      by_cases hin : store.inTransaction session = true
      · have hlocks := locks_lockRows target directive rows hin
        have hself : store.lockRows session target (some directive) rows = store
            ↔ store.locks.acquireAll session directive.rowLock (keysOf target rows)
              = store.locks := by
          rw [← hlocks]
          constructor
          · exact congrArg locks
          · intro hsame
            rw [lockRows_confined, hsame]
        rw [hself, LockTable.acquireAll_eq_self_iff, keysOf, List.forall_mem_map]
        constructor
        · rintro h other hother -
          cases hother
          exact h
        · intro h
          exact h directive rfl hin
      · refine iff_of_true (lockRows_outside _ _ _ (Bool.not_eq_true _ ▸ hin)) ?_
        exact fun _ _ h => absurd h hin

/-! ## Filters that can be evaluated

What is left to decide is whether rows are contested. -/

/-- If no row is contested, all rows are left. -/
theorem uncontested_eq_matched (h : ¬∃ row ∈ store.matched target o,
    store.Contested session lock.rowLock ⟨target, row.1⟩) :
    store.uncontested session target o lock = store.matched target o := by
  rw [uncontested, List.filter_eq_self]
  intro row hrow
  rw [decide_eq_true_iff]
  exact fun hcontested => h ⟨row, hrow, hcontested⟩

section Evaluated

variable (hversion : store.version.supports Version.rowLocking = true)
  (hfilter : store.Evaluates target o)
include hversion hfilter

/-- With a filter that can be evaluated, it is the lock step that decides. -/
theorem matchedRows_eq :
    store.matchedRows session target o (some lock)
      = match store.rows? target with
        | some _ => store.lockable session target lock (store.matched target o)
        | none => .error (noSuchCollection target) := by
  rw [Evaluates, stored] at hfilter
  rw [matchedRows, hversion, Store.rows, matched, stored]
  cases hrows : store.rows? target with
  | none => rfl
  | some rows =>
      rw [hrows, Option.getD_some] at hfilter
      show (filterRows o.filter rows >>= fun rows => store.lockable session target lock rows) = _
      rw [filterRows_of_passes hfilter]
      rfl

variable (hsound : store.LocksSound)
include hsound

/-- The rows that the lock step gives. -/
theorem eq_uncontested_of_matchedRows {rows : Rows}
    (hrows : store.matchedRows session target o (some lock) = .ok rows) :
    rows = store.uncontested session target o lock := by
  rw [matchedRows_eq hversion hfilter, lockable_eq hsound] at hrows
  split at hrows
  · split at hrows
    · split at hrows
      · cases hrows
      · next hfree => rw [uncontested_eq_matched hfree, Except.ok.inj hrows]
    · exact (Except.ok.inj hrows).symm
  · cases hrows

/-- Where contested rows are an error, they are that error. -/
theorem failsWith_iff_of_contentionError? {e : DocError} {code : UInt32}
    (he : contentionError? store.version lock.option = some e) (hcode : e.serverCode? = some code)
    (hmissing : code ≠ ServerCode.noSuchCollection) :
    FailsWith (store.matchedRows session target o (some lock)) code
      ↔ ∃ row ∈ store.matched target o, store.Contested session lock.rowLock ⟨target, row.1⟩ := by
  rw [matchedRows_eq hversion hfilter, lockable_eq hsound, he]
  cases hrows : store.rows? target with
  | none =>
      -- There is no such collection, which is another error.
      constructor
      · rintro ⟨_, heq, hother⟩
        cases heq
        exact absurd (Option.some.inj hother).symm hmissing
      · rintro ⟨row, hrow, -⟩
        rw [matched, stored, hrows] at hrow
        cases hrow
  | some stored =>
      show FailsWith (if _ then _ else _) code ↔ _
      split
      · next hcontested => exact ⟨fun _ => hcontested, fun _ => ⟨e, rfl, hcode⟩⟩
      · next hfree =>
          constructor
          · rintro ⟨_, heq, -⟩
            cases heq
          · exact fun hcontested => absurd hcontested hfree

/-- A read that gives results got past its lock step. -/
theorem execute_find_of_response {response : Response}
    (hresponse : (store.execute session (.find target o (some lock))).1 = .ok response) :
    store.execute session (.find target o (some lock))
      = (store.results target o (store.uncontested session target o lock),
        store.lockRows session target (some lock) (store.uncontested session target o lock)) := by
  cases hstep : store.matchedRows session target o (some lock) with
  | error e =>
      rw [execute_find_of_error hstep] at hresponse
      cases hresponse
  | ok rows =>
      rw [execute_find_of_matchedRows hstep,
        eq_uncontested_of_matchedRows hversion hfilter hsound hstep]

end Evaluated

/-! ## The outcome -/

/-- What comes of a read that asks for locks.  `step` is the outcome of the lock step, which gives the
rows that the results are computed from. -/
structure LockingRead (store : Store) (session : SessionId) (target : CollectionName) (o : Options)
    (lock : LockDirective) (step : Except DocError Rows) (outcome : Except DocError Response × Store) :
    Prop where
  /-- An old server waits in vain, whatever the option. -/
  unheeded : store.version.supports Version.lockContention = false →
    (FailsWith step 1205
      ↔ ∃ row ∈ store.matched target o, store.Contested session lock.rowLock ⟨target, row.1⟩)
  waiting : store.version.supports Version.lockContention = true → lock.option = none →
    (FailsWith step 1205
      ↔ ∃ row ∈ store.matched target o, store.Contested session lock.rowLock ⟨target, row.1⟩)
  refusing : store.version.supports Version.lockContention = true → lock.option = some .noWait →
    (FailsWith step 3572
      ↔ ∃ row ∈ store.matched target o, store.Contested session lock.rowLock ⟨target, row.1⟩)
  /-- A read that leaves locked rows out cannot fail for them. -/
  skipping : store.version.supports Version.lockContention = true →
    lock.option = some .skipLocked → store.has target = true →
    step = .ok (store.uncontested session target o lock)
  /-- A lock step that fails fails the read, and nothing has changed. -/
  failed : ∀ e, step = .error e → outcome = (.error e, store)
  /-- The results are those of the rows that nobody contests, as they are stored. -/
  result : ∀ response, outcome.1 = .ok response → ∃ documents,
    response = .documents documents
      ∧ Query.select o ((store.stored target).map Prod.snd)
          ((store.uncontested session target o lock).map fun row => .obj row.2) = .ok documents
  /-- In a transaction, the session then has a lock on each of them that is as strong as the one it
  asked for and as the one it had. -/
  locked : ∀ response, outcome.1 = .ok response → store.inTransaction session = true →
    ∀ row ∈ store.uncontested session target o lock, ∃ got,
      outcome.2.held? session ⟨target, row.1⟩ = some got ∧ got.covers lock.rowLock = true
        ∧ ∀ before, store.held? session ⟨target, row.1⟩ = some before → got.covers before = true
  /-- No other session and no other row gains or loses a lock. -/
  others : ∀ response, outcome.1 = .ok response → ∀ other key,
    other ≠ session ∨ key ∉ keysOf target (store.uncontested session target o lock) →
    outcome.2.held? other key = store.held? other key
  /-- All that can change is the lock table. -/
  confined : outcome.2 = { store with locks := outcome.2.locks }
  /-- Outside a transaction the locks are not kept. -/
  outside : store.inTransaction session = false → outcome.2 = store

/-- In every reachable store whose version locks rows, this is what comes of a read that asks for locks
and whose filter can be evaluated on every row. -/
theorem locking_read_outcome (h : Reachable store)
    (hversion : store.version.supports Version.rowLocking = true)
    (hfilter : store.Evaluates target o) :
    store.LockingRead session target o lock (store.matchedRows session target o (some lock))
      (store.execute session (.find target o (some lock))) := by
  have hsound := h.locksSound
  constructor
  case unheeded =>
    intro hold
    have hwait := contentionError?_of_old hold lock.option
    exact failsWith_iff_of_contentionError? hversion hfilter hsound hwait rfl (by decide)
  case waiting =>
    intro hnew hoption
    have hwait : contentionError? store.version lock.option = some lockWaitTimeout := by
      rw [contentionError?_of_new hnew, hoption]
    exact failsWith_iff_of_contentionError? hversion hfilter hsound hwait rfl (by decide)
  case refusing =>
    intro hnew hoption
    have hrefuse : contentionError? store.version lock.option = some lockNotAcquired := by
      rw [contentionError?_of_new hnew, hoption]
    exact failsWith_iff_of_contentionError? hversion hfilter hsound hrefuse rfl (by decide)
  case skipping =>
    intro hnew hoption hhas
    obtain ⟨rows, hstored⟩ := Option.isSome_iff_exists.mp hhas
    rw [matchedRows_eq hversion hfilter, hstored, lockable_eq hsound, contentionError?_of_new hnew,
      hoption]
    rfl
  case failed =>
    intro e he
    exact execute_find_of_error he
  case result =>
    intro response hresponse
    rw [execute_find_of_response hversion hfilter hsound hresponse, results] at hresponse
    obtain ⟨rows, hstored, hresponse⟩ := Outcome.bind_eq_ok.mp hresponse
    obtain ⟨documents, hselect, hresponse⟩ := Outcome.bind_eq_ok.mp hresponse
    cases hresponse
    refine ⟨documents, rfl, ?_⟩
    rw [stored, rows_eq_ok.mp hstored]
    exact hselect
  case locked =>
    intro response hresponse hin row hrow
    have hkey : ⟨target, row.1⟩ ∈ keysOf target (store.uncontested session target o lock) :=
      List.mem_map.mpr ⟨row, hrow, rfl⟩
    rw [execute_find_of_response hversion hfilter hsound hresponse, held?_lockRows,
      if_pos ⟨hin, rfl, hkey⟩]
    refine ⟨_, rfl, RowLock.covers_raise _ _, ?_⟩
    intro before hbefore
    rw [hbefore]
    exact RowLock.covers_raise_some _ _
  case others =>
    intro response hresponse other key hother
    rw [execute_find_of_response hversion hfilter hsound hresponse, held?_lockRows, if_neg]
    rintro ⟨-, hsession, hkey⟩
    exact hother.elim (fun hne => hne hsession) fun hnot => hnot hkey
  case confined => exact execute_find_confined target o (some lock)
  case outside => exact execute_find_outside target o (some lock)

/-- Of two documents that the filter lets through, another session has locked one. -/
theorem locking_read_outcome_skipping :
    let books : CollectionName := ⟨"test", "books"⟩
    let doc (id : String) (v : Int64) : Document := [("_id", .str id), ("v", .int v)]
    let comparing (op : BinaryOp) (v : Int64) : Options :=
      { filter := some (.binary op (.field (.ofMember "v")) (.literal (.int v))) }
    let store := (empty ⟨8, 0, 19⟩).run [.opened, .opened,
      .request 0 (.createCollection books false),
      .request 0 (.insert books [.obj (doc "a" 1), .obj (doc "b" 3), .obj (doc "c" 2)] false),
      .request 1 .begin, .request 1 (.find books (comparing .eq 2) (some ⟨.exclusive, none⟩)),
      .request 0 .begin]
    let lock : LockDirective := ⟨.shared, some .skipLocked⟩
    let step := store.matchedRows 0 books (comparing .gt 1) (some lock)
    store.held? 1 ⟨books, "c"⟩ = some .exclusive
      ∧ step = .ok [("b", doc "b" 3)]
      ∧ store.LockingRead 0 books (comparing .gt 1) lock step
        (store.execute 0 (.find books (comparing .gt 1) (some lock))) := by
  intro books doc comparing store lock step
  have hstore : Reachable store := (Reachable.empty ⟨8, 0, 19⟩).run _
  have hstored : store.stored books = [("a", doc "a" 1), ("b", doc "b" 3), ("c", doc "c" 2)] := by
    dsimp only [store, comparing, doc, books]
    rfl
  have hfilter : store.Evaluates books (comparing .gt 1) := by
    intro row hrow
    rw [hstored] at hrow
    simp only [List.mem_cons, List.not_mem_nil, or_false] at hrow
    rcases hrow with rfl | rfl | rfl
    · exact ⟨false, rfl⟩
    · exact ⟨true, rfl⟩
    · exact ⟨true, rfl⟩
  have hversion : store.version.supports Version.rowLocking = true := by
    dsimp only [store, comparing, doc, books]
    rfl
  refine ⟨?_, ?_, locking_read_outcome hstore hversion hfilter⟩
  all_goals dsimp only [step, store, lock, comparing, doc, books]
  all_goals rfl

/-! ## Reads that fail -/

/-- A read that fails in its lock step or before has changed nothing.  One that fails later has taken
the locks it asked for, so nothing has changed exactly if it asked for none, or outside of a
transaction, or if its session had them all. -/
theorem failed_find_keeps_iff {lock : Option LockDirective} {e : DocError}
    (hfailed : (store.execute session (.find target o lock)).1 = .error e) :
    (store.matchedRows session target o lock = .error e
        ∧ (store.execute session (.find target o lock)).2 = store)
      ∨ ∃ rows, store.matchedRows session target o lock = .ok rows
        ∧ store.results target o rows = .error e
        ∧ ((store.execute session (.find target o lock)).2 = store
          ↔ ∀ directive, lock = some directive → store.inTransaction session = true →
            ∀ row ∈ rows, ∃ held, store.held? session ⟨target, row.1⟩ = some held
              ∧ held.covers directive.rowLock = true) := by
  cases hstep : store.matchedRows session target o lock with
  | error _ =>
      rw [execute_find_of_error hstep] at hfailed ⊢
      cases hfailed
      exact .inl ⟨rfl, rfl⟩
  | ok rows =>
      rw [execute_find_of_matchedRows hstep] at hfailed ⊢
      exact .inr ⟨rows, rfl, hfailed, lockRows_eq_self_iff⟩

/-- A read in a transaction fails because there is no column to group by, and the row is locked. -/
theorem failed_find_locks :
    let books : CollectionName := ⟨"test", "books"⟩
    let store := (empty ⟨8, 0, 19⟩).run [.opened, .opened,
      .request 0 (.createCollection books false),
      .request 0 (.insert books [.obj [("_id", .str "1")]] false), .request 0 .begin]
    let read : Request :=
      .find books { groupBy := [.field (.ofMember "v")] } (some ⟨.exclusive, none⟩)
    Reachable store
      ∧ FailsWith (store.execute 0 read).1 1054
      ∧ store.held? 0 ⟨books, "1"⟩ = none
      ∧ (store.execute 0 read).2.held? 0 ⟨books, "1"⟩ = some .exclusive := by
  intro books store read
  refine ⟨(Reachable.empty ⟨8, 0, 19⟩).run _, ⟨Query.unknownColumn "v", ?_, rfl⟩, ?_, ?_⟩
  all_goals dsimp only [store, read, books]
  all_goals rfl

/-- The same read changes nothing if the transaction has inserted the row. -/
theorem failed_find_keeps_iff_inserted :
    let books : CollectionName := ⟨"test", "books"⟩
    let store := (empty ⟨8, 0, 19⟩).run [.opened, .request 0 (.createCollection books false),
      .request 0 .begin, .request 0 (.insert books [.obj [("_id", .str "1")]] false)]
    let read : Request :=
      .find books { groupBy := [.field (.ofMember "v")] } (some ⟨.exclusive, none⟩)
    (store.execute 0 read).1 = .error (Query.unknownColumn "v") ∧ (store.execute 0 read).2 = store := by
  intro books store read
  have hfailed : (store.execute 0 read).1 = .error (Query.unknownColumn "v") := by
    dsimp only [store, read, books]
    rfl
  refine ⟨hfailed, ?_⟩
  rcases failed_find_keeps_iff hfailed with ⟨-, hsame⟩ | ⟨rows, hrows, -, hiff⟩
  · exact hsame
  · have hmatched : store.matchedRows 0 books { groupBy := [.field (.ofMember "v")] }
        (some ⟨.exclusive, none⟩) = .ok [("1", [("_id", .str "1")])] := by
      dsimp only [store, books]
      rfl
    rw [hmatched] at hrows
    cases hrows
    refine hiff.mpr fun directive hlock _ row hrow => ?_
    cases hlock
    obtain rfl := List.mem_singleton.mp hrow
    refine ⟨.exclusive, ?_, rfl⟩
    dsimp only [store, books]
    rfl

end Store

end DocStore
