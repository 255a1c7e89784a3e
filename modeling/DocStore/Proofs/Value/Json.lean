import DocStore.Value.Json

/-!
# Reading back the JSON tree of a value

`Value.toJson` forgets two things: a number without digits becomes null, and whether an integer is
an `int` or a `uint` is not written.  A value `isPlain` if it has neither a number without digits
nor a `uint` small enough for an `int` anywhere in it, and such a value is read back as it was.
-/

namespace DocStore.Value

mutual

/-- JSON tells the value from all others. -/
def isPlain : Value → Bool
  | .null | .bool _ | .int _ | .str _ => true
  | .uint n => Int64.maxValue.toInt < n.toNat
  | .float x => isFinite x
  | .arr items => allPlain items
  | .obj members => membersPlain members

def allPlain : List Value → Bool
  | [] => true
  | v :: rest => isPlain v && allPlain rest

def membersPlain : List (String × Value) → Bool
  | [] => true
  | (_, v) :: rest => isPlain v && membersPlain rest

end

/-! ## Integers -/

theorem ofInt_toInt (i : Int64) : ofInt i.toInt = .int i := by
  have hrange : Int64.minValue.toInt ≤ i.toInt ∧ i.toInt ≤ Int64.maxValue.toInt :=
    ⟨Int64.minValue_le_toInt i, Int64.toInt_le i⟩
  rw [ofInt, if_pos hrange, Int64.ofInt_toInt]

theorem ofInt_toNat {n : UInt64} (h : Int64.maxValue.toInt < n.toNat) :
    ofInt n.toNat = .uint n := by
  have hbig : ¬ (Int64.minValue.toInt ≤ (n.toNat : Int) ∧ (n.toNat : Int) ≤ Int64.maxValue.toInt) :=
    fun hle => absurd hle.2 (by omega)
  have hsmall : (0 : Int) ≤ n.toNat ∧ (n.toNat : Int).toNat < UInt64.size :=
    ⟨Int.natCast_nonneg _, n.toNat_lt_size⟩
  rw [ofInt, if_neg hbig, if_pos hsmall, Int.toNat_natCast, UInt64.ofNat_toNat]

/-! ## Trees -/

mutual

theorem ofJson_toJson : ∀ {v : Value}, v.isPlain = true → ofJson v.toJson = v
  | .null, _ | .bool _, _ | .str _, _ => rfl
  | .int i, _ => ofInt_toInt i
  | .uint _, h => ofInt_toNat (of_decide_eq_true h)
  | .float x, h => by
      simp only [isPlain] at h
      simp only [toJson, h, if_true, ofJson]
  | .arr _, h => congrArg Value.arr (ofJsonItems_toJsonItems h)
  | .obj _, h => congrArg Value.obj (ofJsonMembers_toJsonMembers h)

theorem ofJsonItems_toJsonItems : ∀ {items : List Value}, allPlain items = true →
    ofJsonItems (toJsonItems items) = items
  | [], _ => rfl
  | v :: rest, h => by
      obtain ⟨hv, hrest⟩ := Bool.and_eq_true_iff.mp h
      simp only [toJsonItems, ofJsonItems, ofJson_toJson hv, ofJsonItems_toJsonItems hrest]

theorem ofJsonMembers_toJsonMembers : ∀ {members : List (String × Value)},
    membersPlain members = true → ofJsonMembers (toJsonMembers members) = members
  | [], _ => rfl
  | (key, v) :: rest, h => by
      obtain ⟨hv, hrest⟩ := Bool.and_eq_true_iff.mp h
      simp only [toJsonMembers, ofJsonMembers, ofJson_toJson hv, ofJsonMembers_toJsonMembers hrest]

end

end DocStore.Value
