import Mathlib.Data.Option.Basic
import DocStore.Wire.Record

/-!
# Reading back records

What a reader finds in a tree that the matching writer made: the tag and the fields of a record, a
number in the range of its type, something missing as null, and a list item by item.
-/

namespace DocStore

/-! ## Depth -/

namespace Json

theorem depth_le_depthOfItems {item : Json} {items : List Json} (h : item ∈ items) :
    item.depth ≤ depthOfItems items := by
  induction items with
  | nil => cases h
  | cons first rest ih =>
      rw [depthOfItems]
      rcases List.mem_cons.mp h with rfl | h
      · exact Nat.le_max_left ..
      · exact Nat.le_trans (ih h) (Nat.le_max_right ..)

end Json

namespace Wire

/-! ## Tags and fields -/

namespace Record

@[simp]
theorem ofJson?_obj (members : List (String × Json)) :
    ofJson? (.obj members) = some (.named members) := rfl

@[simp]
theorem ofTagged?_tagged (tag shape : String) (fields : List (String × Json)) :
    ofTagged? tag (tagged tag shape fields)
      = some (shape, .named ((tag, .str shape) :: fields)) := by
  simp only [ofTagged?, tagged, Assoc.get?, if_true]

@[simp]
theorem guard_fits_named (members : List (String × Json)) (count : Nat) :
    guard ((named members).fits count = true) = some () := rfl

@[simp]
theorem field?_named (members : List (String × Json)) (position : Nat) (name : String) :
    (named members).field? position name = Assoc.get? members name := rfl

@[simp]
theorem nullable?_named (members : List (String × Json)) (position : Nat) (name : String) :
    (named members).nullable? position name = some ((Assoc.get? members name).getD .null) := rfl

end Record

theorem depth_tagged (tag shape : String) (fields : List (String × Json)) :
    (tagged tag shape fields).depth = Json.depthOfMembers fields + 1 := by
  simp only [tagged, Json.depth, Json.depthOfMembers, Nat.zero_max]

/-! ## Scalars -/

@[simp]
theorem text?_str (s : String) : text? (.str s) = some s := rfl

@[simp]
theorem flag?_bool (b : Bool) : flag? (.bool b) = some b := rfl

theorem integer?_int {low high n : Int} (hlow : low ≤ n) (hhigh : n ≤ high) :
    integer? low high (.int n) = some n := if_pos ⟨hlow, hhigh⟩

@[simp]
theorem uint32?_toNat (n : UInt32) : uint32? (.int n.toNat) = some n := by
  have hle : (n.toNat : Int) ≤ UInt32.size - 1 :=
    Int.le_sub_one_of_lt (Int.ofNat_lt.mpr n.toNat_lt_size)
  rw [uint32?, integer?_int (Int.natCast_nonneg _) hle, Option.map_some, Int.toNat_natCast,
    UInt32.ofNat_toNat]

@[simp]
theorem uint64?_toNat (n : UInt64) : uint64? (.int n.toNat) = some n := by
  have hle : (n.toNat : Int) ≤ UInt64.size - 1 :=
    Int.le_sub_one_of_lt (Int.ofNat_lt.mpr n.toNat_lt_size)
  rw [uint64?, integer?_int (Int.natCast_nonneg _) hle, Option.map_some, Int.toNat_natCast,
    UInt64.ofNat_toNat]

@[simp]
theorem int64?_toInt (i : Int64) : int64? (.int i.toInt) = some i := by
  rw [int64?, integer?_int (Int64.minValue_le_toInt i) (Int64.toInt_le i), Option.map_some,
    Int64.ofInt_toInt]

/-! ## What may be missing, and lists -/

variable {α β : Type} {read : Json → Option α} {write : α → Json}

theorem optional?_of_ne_null {json : Json} (h : json ≠ .null) :
    optional? read json = (read json).map some := by
  cases json <;> first | rfl | exact absurd rfl h

theorem optional?_ofOption {a? : Option α} (hwrite : ∀ a, write a ≠ .null)
    (h : ∀ a ∈ a?, read (write a) = some a) : optional? read (ofOption write a?) = some a? := by
  cases a? with
  | none => rfl
  | some a => rw [ofOption, optional?_of_ne_null (hwrite a), h a rfl, Option.map_some]

theorem list?_map {items : List α} (h : ∀ a ∈ items, read (write a) = some a) :
    list? read (.arr (items.map write)) = some items := by
  rw [list?]
  induction items with
  | nil => rfl
  | cons a rest ih =>
      obtain ⟨ha, hrest⟩ := List.forall_mem_cons.mp h
      simp [ha, ih hrest]

theorem pair?_arr {first : Json → Option α} {second : Json → Option β} {a b : Json} {x : α} {y : β}
    (ha : first a = some x) (hb : second b = some y) :
    pair? first second (.arr [a, b]) = some (x, y) := by
  simp [pair?, ha, hb]

end Wire

end DocStore
