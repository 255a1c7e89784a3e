import DocStore.Proofs.Value.Tree
import DocStore.Value.Order

/-!
# The sort order

Main statements: `sortCompare_swap`, `isLE_sortCompare_trans` and `text_eq_of_sortCompare`.  On values
without floating-point numbers the sort order is a total preorder, in which only values of one text
tie.

The order is put together from three: a partial comparison within a class, the rank of classes, and
the order of texts.  Without floating-point numbers it is the lexicographic order of three views of a
value, its kind, its magnitude and its wording (`sortCompare_eq`), and such an order is lawful.
-/

namespace DocStore.Value

variable {a b c : Value}

/-! ## Three views -/

/-- The class of a value, the larger integers apart from the others. -/
def kind : Value → Nat
  | .null => 0
  | .int _ => 1
  | .uint _ => 2
  | .float _ => 3
  | .str _ => 4
  | .bool _ => 5
  | .arr _ => 6
  | .obj _ => 7

/-- What tells numbers and truth values apart. -/
def magnitude : Value → Int
  | .int i => i.toInt
  | .uint n => n.toNat
  | .bool b => b.toNat
  | _ => 0

/-- What tells strings, arrays and objects apart. -/
def wording : Value → String
  | .str s => s
  | .arr items => (arr items).text
  | .obj members => (obj members).text
  | _ => ""

/-- The order by the three views. -/
def viewCompare : Value → Value → Ordering :=
  compareLex (compareOn kind) (compareLex (compareOn magnitude) (compareOn wording))

instance : Std.TransCmp viewCompare :=
  inferInstanceAs (Std.TransCmp (compareLex (compareOn kind)
    (compareLex (compareOn magnitude) (compareOn wording))))

/-- Values of different kinds are in the order of their kinds. -/
theorem sortCompare_of_kind_ne (ha : a.hasFloat = false) (hb : b.hasFloat = false)
    (h : a.kind ≠ b.kind) : a.sortCompare b = compare a.kind b.kind := by
  cases a <;> cases b
  all_goals first
    | rfl
    | exact absurd rfl h
    | simp at ha hb

/-- Values of one kind differ in their magnitudes or in their wordings. -/
theorem sortCompare_of_kind_eq (ha : a.hasFloat = false) (h : a.kind = b.kind) :
    a.sortCompare b = (compare a.magnitude b.magnitude).then (compare a.wording b.wording) := by
  cases a <;> cases b <;> try (simp [kind] at h; done)
  case null => rfl
  case bool.bool x y => cases x <;> cases y <;> rfl
  case int.int i j => simp [sortCompare, compare?, magnitude, wording]
  case uint.uint m n =>
    have hcast : compare (m.toNat : Int) n.toNat = compare m.toNat n.toNat := by
      simp only [compare, compareOfLessAndEq, Int.ofNat_lt, Int.natCast_inj]
    simp [sortCompare, compare?, magnitude, wording, hcast]
  case float.float x y => simp at ha
  case str.str s t => rfl
  case arr.arr xs ys => rfl
  case obj.obj ms ns => rfl

theorem sortCompare_eq (ha : a.hasFloat = false) (hb : b.hasFloat = false) :
    a.sortCompare b = viewCompare a b := by
  rw [viewCompare, compareLex, compareLex, compareOn, compareOn, compareOn]
  by_cases h : a.kind = b.kind
  · rw [sortCompare_of_kind_eq ha h, h, Std.compare_self]
    rfl
  · rw [sortCompare_of_kind_ne ha hb h]
    cases hc : compare a.kind b.kind with
    | eq => exact absurd (Std.compare_eq_iff_eq.mp hc) h
    | lt => rfl
    | gt => rfl

/-! ## The order -/

/-- Turning the comparison round turns its outcome round. -/
theorem sortCompare_swap (ha : a.hasFloat = false) (hb : b.hasFloat = false) :
    b.sortCompare a = (a.sortCompare b).swap := by
  rw [sortCompare_eq ha hb, sortCompare_eq hb ha]
  exact Std.OrientedCmp.eq_swap

theorem isLE_sortCompare_trans (ha : a.hasFloat = false) (hb : b.hasFloat = false)
    (hc : c.hasFloat = false) (hab : (a.sortCompare b).isLE) (hbc : (b.sortCompare c).isLE) :
    (a.sortCompare c).isLE := by
  rw [sortCompare_eq ha hb] at hab
  rw [sortCompare_eq hb hc] at hbc
  rw [sortCompare_eq ha hc]
  exact Std.TransCmp.isLE_trans hab hbc

/-- Values that tie have the same text. -/
theorem text_eq_of_sortCompare (ha : a.hasFloat = false) (hb : b.hasFloat = false)
    (h : a.sortCompare b = .eq) : a.text = b.text := by
  rw [sortCompare_eq ha hb, viewCompare] at h
  obtain ⟨hkind, hrest⟩ := compareLex_eq_eq.mp h
  obtain ⟨hmagnitude, hwording⟩ := compareLex_eq_eq.mp hrest
  rw [compareOn, Std.compare_eq_iff_eq] at hkind hmagnitude hwording
  clear h hrest
  cases a <;> cases b <;> try (simp [kind] at hkind; done)
  case null => rfl
  case bool.bool x y => cases x <;> cases y <;> first | rfl | exact absurd hmagnitude (by decide)
  case int.int i j => rw [Int64.toInt_inj.mp hmagnitude]
  case uint.uint m n => rw [UInt64.toNat_inj.mp (Int.ofNat_inj.mp hmagnitude)]
  case float.float x y => simp at ha
  case str.str s t => rw [show s = t from hwording]
  case arr.arr xs ys => exact hwording
  case obj.obj ms ns => exact hwording

end DocStore.Value
