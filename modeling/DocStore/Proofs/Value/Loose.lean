import DocStore.Value.Order

/-!
# Values that loosely equal only themselves

Loose equality takes numbers of different types for the same and ignores the order of an object's
members.  A value in which neither can occur is `isRigid`: it loosely equals nothing but itself.
-/

namespace DocStore.Value

mutual

/-- There is no number in the value, and no object of more than one member. -/
def isRigid : Value → Bool
  | .null | .bool _ | .str _ => true
  | .int _ | .uint _ | .float _ => false
  | .arr items => allRigid items
  | .obj members => membersRigid members

def allRigid : List Value → Bool
  | [] => true
  | v :: rest => isRigid v && allRigid rest

def membersRigid : List (String × Value) → Bool
  | [] => true
  | [(_, v)] => isRigid v
  | _ => false

end

theorem looselyEquals_str_self (s : String) : (str s).looselyEquals (.str s) = true := by
  simp [looselyEquals, BEq.beq, same]

mutual

theorem eq_of_looselyEquals : ∀ {v w : Value}, w.isRigid = true → v.looselyEquals w = true → v = w
  | v, .null, _, h | v, .bool _, _, h | v, .str _, _, h => by
      cases v <;> simp_all [looselyEquals, BEq.beq, same]
  | v, .arr ys, hrigid, h => by
      cases v with
      | arr xs => exact congrArg arr (eq_of_looselyEqualItems hrigid h)
      | _ => simp [looselyEquals, BEq.beq, same] at h
  | v, .obj [], _, h => by
      cases v <;> simp_all [looselyEquals, BEq.beq, same]
  | v, .obj [(key, w)], hrigid, h => by
      cases v with
      | obj ms =>
          -- As many members on both sides, so the other object has one member too.
          match ms, h with
          | [(k, v)], h =>
              by_cases hkey : key = k
              · have hvalue : v.looselyEquals w = true := by
                  simpa [looselyEquals, looselyEqualMembers, Assoc.get?, hkey] using h
                have hw : w.isRigid = true := hrigid
                rw [hkey, eq_of_looselyEquals hw hvalue]
              · simp [looselyEquals, looselyEqualMembers, Assoc.get?, hkey] at h
      | _ => simp [looselyEquals, BEq.beq, same] at h

theorem eq_of_looselyEqualItems : ∀ {xs ys : List Value}, allRigid ys = true →
    looselyEqualItems xs ys = true → xs = ys
  | [], [], _, _ => rfl
  | x :: xs, y :: ys, hrigid, h => by
      obtain ⟨hy, hys⟩ := Bool.and_eq_true_iff.mp hrigid
      obtain ⟨hx, hxs⟩ := Bool.and_eq_true_iff.mp h
      rw [eq_of_looselyEquals hy hx, eq_of_looselyEqualItems hys hxs]

end

end DocStore.Value
