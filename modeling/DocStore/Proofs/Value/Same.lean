import DocStore.Proofs.Assoc
import DocStore.Value.Basic

/-!
# Values that equal themselves

The members of an object are a table, so no name is in it twice.  `hasDistinctNames` says so of every
object in a value.  Such a value equals itself, unless there is a number in it that does not: a NaN.
Main statement: `beq_self_iff`.
-/

namespace DocStore.Value

mutual

/-- No object in the value has two members of one name. -/
def hasDistinctNames : Value → Bool
  | .arr items => allDistinctNames items
  | .obj members => decide (Assoc.keys members).Nodup && membersDistinctNames members
  | _ => true

def allDistinctNames : List Value → Bool
  | [] => true
  | v :: rest => hasDistinctNames v && allDistinctNames rest

def membersDistinctNames : List (String × Value) → Bool
  | [] => true
  | (_, v) :: rest => hasDistinctNames v && membersDistinctNames rest

end

mutual

/-- There is a NaN somewhere in the value. -/
def hasNaN : Value → Bool
  | .float x => x.isNaN
  | .arr items => anyNaN items
  | .obj members => membersNaN members
  | _ => false

def anyNaN : List Value → Bool
  | [] => false
  | v :: rest => hasNaN v || anyNaN rest

def membersNaN : List (String × Value) → Bool
  | [] => false
  | (_, v) :: rest => hasNaN v || membersNaN rest

end

/-! ## Distinct names -/

theorem membersDistinctNames_iff {members : List (String × Value)} :
    membersDistinctNames members = true ↔ ∀ member ∈ members, member.2.hasDistinctNames = true := by
  induction members with
  | nil => simp [membersDistinctNames]
  | cons member rest ih =>
      rw [membersDistinctNames, Bool.and_eq_true, ih, List.forall_mem_cons]

theorem hasDistinctNames_obj {members : List (String × Value)} :
    (obj members).hasDistinctNames = true
      ↔ (Assoc.keys members).Nodup ∧ ∀ member ∈ members, member.2.hasDistinctNames = true := by
  rw [hasDistinctNames, Bool.and_eq_true, decide_eq_true_iff, membersDistinctNames_iff]

/-! ## Self-equality -/

theorem beq_float_self (x : Float) : (x == x) = !x.isNaN := by
  show Float.Model.UnpackedFloat.beq x.toModel.unpack x.toModel.unpack
    = !x.toModel.unpack.isNaN
  cases x.toModel.unpack with
  | notANumber => rfl
  | infinity sign => cases sign <;> rfl
  | zero sign => rfl
  | finite sign mantissa exponent hpos =>
      have horder : (compare exponent exponent).then (compare mantissa mantissa) = .eq := by
        have hexponent : compare exponent exponent = .eq := Std.ReflCmp.compare_self
        have hmantissa : compare mantissa mantissa = .eq := Std.ReflCmp.compare_self
        rw [hexponent, hmantissa]
        rfl
      cases sign with
      | positive =>
          show (some ((compare exponent exponent).then (compare mantissa mantissa))
            == some Ordering.eq) = true
          rw [horder]
          rfl
      | negative =>
          show (some ((compare exponent exponent).then (compare mantissa mantissa)).swap
            == some Ordering.eq) = true
          rw [horder]
          rfl

mutual

theorem same_self : ∀ {v : Value}, v.hasDistinctNames = true → same v v = !v.hasNaN
  | .null, _ => rfl
  | .bool b, _ => by simp [same, hasNaN]
  | .int i, _ => by simp [same, hasNaN]
  | .uint n, _ => by simp [same, hasNaN]
  | .float x, _ => beq_float_self x
  | .str s, _ => by simp [same, hasNaN]
  | .arr items, h => sameItems_self h
  | .obj members, h => by
      obtain ⟨hnames, hvalues⟩ := Bool.and_eq_true_iff.mp h
      have hmembers : ∀ member ∈ members, Assoc.get? members member.1 = some member.2 :=
        fun _ hmember => Assoc.get?_of_mem (of_decide_eq_true hnames) hmember
      rw [same, beq_self_eq_true, Bool.true_and]
      exact sameMembers_self hvalues hmembers

theorem sameItems_self : ∀ {items : List Value}, allDistinctNames items = true →
    sameItems items items = !anyNaN items
  | [], _ => rfl
  | v :: rest, h => by
      obtain ⟨hv, hrest⟩ := Bool.and_eq_true_iff.mp h
      rw [sameItems, same_self hv, sameItems_self hrest, anyNaN, Bool.not_or]

/-- The members are compared with those of the whole object, where each is found under its name. -/
theorem sameMembers_self : ∀ {members whole : List (String × Value)},
    membersDistinctNames members = true →
    (∀ member ∈ members, Assoc.get? whole member.1 = some member.2) →
    sameMembers members whole = !membersNaN members
  | [], _, _, _ => rfl
  | (name, v) :: rest, whole, h, hwhole => by
      obtain ⟨hv, hrest⟩ := Bool.and_eq_true_iff.mp h
      obtain ⟨hfound, hothers⟩ := List.forall_mem_cons.mp hwhole
      have hmore := sameMembers_self hrest hothers
      dsimp only at hfound
      rw [sameMembers, hfound, hmore, membersNaN, Bool.not_or]
      dsimp only
      rw [same_self hv]

end

theorem beq_self_iff {v : Value} (h : v.hasDistinctNames = true) :
    (v == v) = true ↔ v.hasNaN = false := by
  show same v v = true ↔ _
  rw [same_self h, Bool.not_eq_true']

end DocStore.Value
