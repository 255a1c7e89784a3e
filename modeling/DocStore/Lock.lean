import DocStore.Version

/-!
# Row locks on reads

What a statement asks for (`LockMode`, `LockContention`) and what is sent to the server about it
(`LockDirective`).
-/

namespace DocStore

/-- The lock a read asks for on the rows it matches. -/
inductive LockMode where
  | none | shared | exclusive
  deriving DecidableEq, Repr, Inhabited

/-- What to do about a row that another session has locked. -/
inductive LockContention where
  /-- Wait until the lock is released or the wait times out. -/
  | default
  /-- Fail at once. -/
  | noWait
  /-- Leave the row out of the result. -/
  | skipLocked
  deriving DecidableEq, Repr, Inhabited

/-- The strength of a lock that is held. -/
inductive RowLock where
  | shared | exclusive
  deriving DecidableEq, Repr, Inhabited

inductive LockOption where
  | noWait | skipLocked
  deriving DecidableEq, Repr, Inhabited

/-- The lock that a request carries. -/
structure LockDirective where
  rowLock : RowLock
  option : Option LockOption
  deriving DecidableEq, Repr, Inhabited

namespace LockMode

/-- The name of a mode on the wire. -/
def name : LockMode → String
  | .none => "none" | .shared => "shared" | .exclusive => "exclusive"

def ofName? : String → Option LockMode
  | "none" => some .none
  | "shared" => some .shared
  | "exclusive" => some .exclusive
  | _ => Option.none

end LockMode

namespace LockContention

/-- The name of a contention rule on the wire. -/
def name : LockContention → String
  | .default => "default" | .noWait => "no_wait" | .skipLocked => "skip_locked"

def ofName? : String → Option LockContention
  | "default" => some .default
  | "no_wait" => some .noWait
  | "skip_locked" => some .skipLocked
  | _ => none

/-- The option a contention rule is sent as. -/
def option? : LockContention → Option LockOption
  | .default => none
  | .noWait => some .noWait
  | .skipLocked => some .skipLocked

end LockContention

namespace RowLock

/-- The name of a lock on the wire. -/
def name : RowLock → String
  | .shared => "shared" | .exclusive => "exclusive"

def ofName? : String → Option RowLock
  | "shared" => some .shared
  | "exclusive" => some .exclusive
  | _ => none

def code : RowLock → Nat
  | .shared => 1 | .exclusive => 2

/-- Whether `a` allows all that `b` allows. -/
def covers (a b : RowLock) : Bool := b.code ≤ a.code

end RowLock

namespace LockOption

/-- The name of an option on the wire. -/
def name : LockOption → String
  | .noWait => "no_wait" | .skipLocked => "skip_locked"

def ofName? : String → Option LockOption
  | "no_wait" => some .noWait
  | "skip_locked" => some .skipLocked
  | _ => none

def code : LockOption → Nat
  | .noWait => 1 | .skipLocked => 2

end LockOption

namespace LockDirective

/-- The codes of the lock and of its option. -/
def codes (d : LockDirective) : Nat × Option Nat := (d.rowLock.code, d.option.map LockOption.code)

/-- The directive for a server of some version.  A lock needs a server that locks rows; what to do
about contention is sent to older servers too. -/
def compile (mode : LockMode) (contention : LockContention) (server : Version) :
    Except DocError (Option LockDirective) :=
  let directive (lock : RowLock) : Except DocError (Option LockDirective) :=
    if server.supports Version.rowLocking then .ok (some ⟨lock, contention.option?⟩)
    else .error (Version.unsupported Version.rowLocking)
  match mode with
  | .none => .ok none
  | .shared => directive .shared
  | .exclusive => directive .exclusive

end LockDirective

end DocStore
