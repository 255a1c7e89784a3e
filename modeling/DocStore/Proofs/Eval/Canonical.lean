import DocStore.Proofs.Eval.Arithmetic
import DocStore.Proofs.Eval.Closed
import DocStore.Proofs.Expr.WellFormed

/-!
# Integers in canonical form

Main statement: `Expr.integers_canonical`.  There are two forms of an integer, and which of them it has
is a matter of its size: `uint` is for what is beyond every `int`.  A value is canonical if all integers
in it are in their forms.  What is read from a text or from JSON is canonical, and evaluation keeps it so
(`Eval.closed_isCanonical`).

It is for this that comparisons may go by the form alone: canonical integers are in the order of the
numbers that they stand for, and any two strings, truth values or integers are in some order, if they are
of one class, and in none otherwise.
-/

namespace DocStore

namespace Value

variable {v w : Value} {m n : Int} {items : List Value} {members : List (String × Value)}

/-! ## Canonical values -/

/-- Not an unsigned integer that a signed one could stand for. -/
def isReduced : Value → Bool
  | .uint n => Int64.maxValue.toInt < n.toNat
  | _ => true

/-- Every integer in the value, at any depth, has the form that its size asks for. -/
def isCanonical (v : Value) : Bool := v.descendants.all isReduced

theorem isCanonical_arr :
    (arr items).isCanonical = true ↔ ∀ v ∈ items, v.isCanonical = true := by
  rw [isCanonical, descendants, descendantsOfItems_eq_flatMap, List.all_cons, List.all_flatMap]
  simp [isReduced, isCanonical]

theorem isCanonical_obj :
    (obj members).isCanonical = true ↔ ∀ member ∈ members, member.2.isCanonical = true := by
  rw [isCanonical, descendants, descendantsOfMembers_eq_flatMap, List.all_cons, List.all_flatMap]
  simp [isReduced, isCanonical]

theorem isCanonical_uint {n : UInt64} :
    (uint n).isCanonical = true ↔ Int64.maxValue.toInt < n.toNat := by
  simp [isCanonical, descendants, isReduced]

theorem isCanonical_of_isScalar (h : v.IsScalar) : v.isCanonical = true := by
  cases v with
  | uint n => exact isCanonical_uint.mpr h
  | arr items => cases h
  | obj members => cases h
  | _ => rfl

theorem isCanonical_ofUInt64 (n : UInt64) : (ofUInt64 n).isCanonical = true := by
  rw [ofUInt64]
  split
  · rfl
  · next h => exact isCanonical_uint.mpr (Int.not_le.mp h)

/-! ## JSON -/

theorem isCanonical_ofInt (n : Int) : (ofInt n).isCanonical = true := by
  rw [ofInt]
  split
  · rfl
  · next hsigned =>
      split
      · next hunsigned =>
          -- It is not negative, so it is above the signed ones.
          have hmin : Int64.minValue.toInt ≤ n := Int.le_trans (by decide) hunsigned.1
          have hvalue : (UInt64.ofNat n.toNat).toNat = n.toNat :=
            UInt64.toNat_ofNat_of_lt' hunsigned.2
          rw [isCanonical_uint, hvalue]
          omega
      · rfl

mutual

theorem isCanonical_ofJson : ∀ json : Json, (ofJson json).isCanonical = true
  | .null | .bool _ | .float _ | .str _ => rfl
  | .int n => isCanonical_ofInt n
  | .arr items => isCanonical_arr.mpr (isCanonical_ofJsonItems items)
  | .obj members => isCanonical_obj.mpr (isCanonical_ofJsonMembers members)

theorem isCanonical_ofJsonItems : ∀ items : List Json,
    ∀ v ∈ ofJsonItems items, v.isCanonical = true
  | [] => List.forall_mem_nil _
  | item :: rest =>
      List.forall_mem_cons.mpr ⟨isCanonical_ofJson item, isCanonical_ofJsonItems rest⟩

theorem isCanonical_ofJsonMembers : ∀ members : List (String × Json),
    ∀ member ∈ ofJsonMembers members, member.2.isCanonical = true
  | [] => List.forall_mem_nil _
  | (_, json) :: rest =>
      List.forall_mem_cons.mpr ⟨isCanonical_ofJson json, isCanonical_ofJsonMembers rest⟩

end

/-! ## Comparing -/

/-- The number that an integer stands for. -/
def integer? : Value → Option Int
  | .int i => some i.toInt
  | .uint n => some n.toNat
  | _ => none

/-- A string, a truth value or an integer. -/
def isDiscrete : Value → Bool
  | .bool _ | .int _ | .uint _ | .str _ => true
  | _ => false

theorem beq_eq_compare {α : Type} [Ord α] [Std.LawfulEqOrd α] [BEq α] [LawfulBEq α] (a b : α) :
    (a == b) = (some (compare a b) == some .eq) := by
  rw [Bool.eq_iff_iff, beq_iff_eq, beq_iff_eq, Option.some_inj, Std.compare_eq_iff_eq]

theorem compare_natCast (m n : Nat) : compare (m : Int) n = compare m n := by
  simp only [compare, compareOfLessAndEq, Int.ofNat_lt, Int.natCast_inj]

/-- Equality and order agree on what is equal. -/
theorem looselyEquals_eq (hv : v.isDiscrete = true) (hw : w.isDiscrete = true) :
    v.looselyEquals w = (compare? v w == some .eq) := by
  have hint : ∀ i j : Int64, (i == j) = (i.toInt == j.toInt) := fun i j => by
    rw [Bool.eq_iff_iff, beq_iff_eq, beq_iff_eq, Int64.toInt_inj]
  have huint : ∀ m n : UInt64, (m == n) = (m.toNat == n.toNat) := fun m n => by
    rw [Bool.eq_iff_iff, beq_iff_eq, beq_iff_eq, UInt64.toNat_inj]
  cases v <;> cases hv <;> cases w <;> cases hw
  case bool.refl.bool.refl a b => exact beq_eq_compare a b
  case int.refl.int.refl i j => exact (hint i j).trans (beq_eq_compare i.toInt j.toInt)
  case uint.refl.uint.refl m n => exact (huint m n).trans (beq_eq_compare m.toNat n.toNat)
  case str.refl.str.refl s t => exact beq_eq_compare s t
  all_goals rfl

/-- Canonical integers are in the order of the numbers, also where only their forms are looked at. -/
theorem compare?_of_integer? (hv : v.isCanonical = true) (hw : w.isCanonical = true)
    (hm : v.integer? = some m) (hn : w.integer? = some n) : compare? v w = some (compare m n) := by
  have hbelow : ∀ (i : Int64) (k : UInt64), (uint k).isCanonical = true → i.toInt < k.toNat :=
    fun i k hk => Int.lt_of_le_of_lt (Int64.toInt_le i) (isCanonical_uint.mp hk)
  cases v <;> cases w <;> cases hm <;> cases hn
  case int.int i j => rfl
  case uint.uint k l => exact congrArg some (compare_natCast _ _).symm
  case int.uint i k => exact congrArg some (Std.compare_eq_lt.mpr (hbelow i k hw)).symm
  case uint.int k i => exact congrArg some (Std.compare_eq_gt.mpr (hbelow i k hv)).symm

/-- There is an order within a class, and none between classes. -/
theorem isSome_compare?_iff (hv : v.isDiscrete = true) (hw : w.isDiscrete = true) :
    (compare? v w).isSome = true ↔ v.rank = w.rank := by
  cases v <;> cases hv <;> cases w <;> cases hw
  all_goals simp [compare?, rank, float?]

end Value

/-! ## Evaluation -/

open Value

theorem Eval.closed_isCanonical : Closed fun v => v.isCanonical = true where
  computed v hv := by
    cases v with
    | uint n => cases hv
    | arr items => cases hv
    | obj members => cases hv
    | _ => rfl
  uint _ hn := isCanonical_uint.mpr hn
  arr _ := isCanonical_arr
  members _ hmembers := isCanonical_obj.mp hmembers
  obj _ _ hmembers := isCanonical_obj.mpr hmembers

namespace Expr

variable {e l r : Expr} {scope : Scope} {v w : Value}

/-- All literals of the expression are canonical. -/
def HasCanonicalLiterals (e : Expr) : Prop := e.LiteralsHold fun v => v.isCanonical = true

theorem WellFormed.hasCanonicalLiterals (h : e.WellFormed) : e.HasCanonicalLiterals :=
  fun _ hvalue => isCanonical_of_isScalar (h.shape _ hvalue)

/-- What the comparisons of two operands give that are in this order, or in none. -/
structure ComparesAs (l r : Expr) (scope : Scope) (order : Option Ordering) : Prop where
  eq : (binary .eq l r).eval scope = .ok (.bool (order == some .eq))
  notEq : (binary .notEq l r).eval scope = .ok (.bool (order != some .eq))
  lt : (binary .lt l r).eval scope = .ok (.bool (order == some .lt))
  ltEq : (binary .ltEq l r).eval scope = .ok (.bool (order == some .lt || order == some .eq))
  gt : (binary .gt l r).eval scope = .ok (.bool (order == some .gt))
  gtEq : (binary .gtEq l r).eval scope = .ok (.bool (order == some .gt || order == some .eq))

theorem isNull_of_isDiscrete (h : v.isDiscrete = true) : v.isNull = false := by
  cases v <;> first | rfl | cases h

theorem isDiscrete_of_integer? {n : Int} (h : v.integer? = some n) : v.isDiscrete = true := by
  cases v <;> first | rfl | cases h

theorem comparesAs_compare? (hl : l.eval scope = .ok v) (hr : r.eval scope = .ok w)
    (hv : v.isDiscrete = true) (hw : w.isDiscrete = true) :
    ComparesAs l r scope (compare? v w) := by
  have hcompare : ∀ op : BinaryOp, op.isComparison = true → op.isLogical = false →
      (binary op l r).eval scope = .ok (.bool (Arithmetic.compares op v w)) := by
    intro op hop hlogical
    rw [eval_binary hlogical hl hr, Arithmetic.binary, isNull_of_isDiscrete hv,
      isNull_of_isDiscrete hw, hop]
    rfl
  have heq := looselyEquals_eq hv hw
  constructor
  case eq => rw [hcompare .eq rfl rfl, Arithmetic.compares, heq]
  case notEq =>
    rw [hcompare .notEq rfl rfl, Arithmetic.compares, heq]
    rfl
  all_goals exact hcompare _ rfl rfl

/-- What is read is canonical, and so is what an expression makes of canonical values.  Canonical
integers compare as the numbers that they stand for; strings, truth values and integers compare within
their class, each pair in one order, and not with another class. -/
theorem integers_canonical :
    (∀ (e : Expr) (scope : Scope) (v : Value), e.HasCanonicalLiterals →
        scope.Holds (fun v => v.isCanonical = true) → e.eval scope = .ok v → v.isCanonical = true)
      ∧ (∀ json, (ofJson json).isCanonical = true) ∧ (∀ n, (ofUInt64 n).isCanonical = true)
      ∧ (∀ text, (∀ e, Expr.parse text = .ok e → e.HasCanonicalLiterals)
        ∧ (∀ keys, SortKey.parseList text = .ok keys →
            ∀ key ∈ keys, key.expr.HasCanonicalLiterals)
        ∧ (∀ columns, Column.parseList text = .ok columns →
            ∀ column ∈ columns, column.source.HasCanonicalLiterals)
        ∧ ∀ es, Expr.parseList text = .ok es → ∀ e ∈ es, e.HasCanonicalLiterals)
      ∧ ∀ (l r : Expr) (scope : Scope) (v w : Value), l.eval scope = .ok v → r.eval scope = .ok w →
        (∀ m n, v.isCanonical = true → w.isCanonical = true → v.integer? = some m →
            w.integer? = some n → ComparesAs l r scope (some (compare m n)))
        ∧ (v.isDiscrete = true → w.isDiscrete = true →
            (v.rank = w.rank → ∃ order, ComparesAs l r scope (some order))
              ∧ (v.rank ≠ w.rank → ComparesAs l r scope none)) := by
  refine ⟨fun e scope v hliterals hscope heval => ?_, isCanonical_ofJson, isCanonical_ofUInt64,
    fun text => ?_, fun l r scope v w hl hr => ⟨fun m n hv hw hm hn => ?_, fun hv hw => ?_⟩⟩
  · exact Eval.closed_isCanonical.eval hliterals hscope heval
  · exact ⟨fun e h => (Yields.filter.run h).hasCanonicalLiterals,
      fun keys h key hkey => ((Yields.listToEnd Yields.sortKey).run h key hkey).hasCanonicalLiterals,
      fun columns h column hcolumn =>
        ((Yields.listToEnd Yields.column).run h column hcolumn).hasCanonicalLiterals,
      fun es h e he =>
        ((Yields.listToEnd Yields.wholeExpression).run h e he).hasCanonicalLiterals⟩
  · rw [← compare?_of_integer? hv hw hm hn]
    exact comparesAs_compare? hl hr (isDiscrete_of_integer? hm) (isDiscrete_of_integer? hn)
  · have hcompares := comparesAs_compare? hl hr hv hw
    have hsome := isSome_compare?_iff hv hw
    refine ⟨fun hrank => ?_, fun hrank => ?_⟩
    · obtain ⟨order, horder⟩ := Option.isSome_iff_exists.mp (hsome.mpr hrank)
      exact ⟨order, horder ▸ hcompares⟩
    · have hnone : compare? v w = none := by
        rw [← Option.not_isSome_iff_eq_none, hsome]
        exact hrank
      exact hnone ▸ hcompares

/-- A row with the last integer of one form and the first of the other. -/
def formsMeet : Value :=
  .obj [("signed", .int Int64.maxValue), ("unsigned", .uint 9223372036854775808), ("text", .str "1")]

/-- In this row the integers are in order, and the text has no place among them; in a group of it an
alias is as canonical as a field. -/
theorem integers_canonical_formsMeet :
    (∃ v, (array [.field ⟨[.member "unsigned"]⟩, .field ⟨[.member "total"]⟩, .literal (.int 1)]).eval
        (.group [formsMeet] (some [("total", .uint 18446744073709551615)])) = .ok v
        ∧ v.isCanonical = true)
      ∧ (∃ e, Expr.parse "18446744073709551615 > a" = .ok e ∧ e.HasCanonicalLiterals)
      ∧ (∃ keys, SortKey.parseList "a + 9223372036854775808 desc" = .ok keys
        ∧ ∀ key ∈ keys, key.expr.HasCanonicalLiterals)
      ∧ (∃ columns, Column.parseList "9223372036854775807 as n" = .ok columns
        ∧ ∀ column ∈ columns, column.source.HasCanonicalLiterals)
      ∧ (∃ es, Expr.parseList "[1, 9223372036854775808], -2" = .ok es
        ∧ ∀ e ∈ es, e.HasCanonicalLiterals)
      ∧ ComparesAs (.field ⟨[.member "signed"]⟩) (.field ⟨[.member "unsigned"]⟩) (.row formsMeet)
        (some .lt)
      ∧ (∃ order, ComparesAs (.field ⟨[.member "unsigned"]⟩) (.field ⟨[.member "signed"]⟩)
        (.row formsMeet) (some order))
      ∧ ComparesAs (.field ⟨[.member "signed"]⟩) (.field ⟨[.member "text"]⟩) (.row formsMeet) none := by
  obtain ⟨heval, -, -, hparse, hcompare⟩ := integers_canonical
  obtain ⟨e, he, -⟩ := Outcome.exists_eq_ok (Expr.parse "18446744073709551615 > a") (fun _ => true)
    (by decide +kernel)
  obtain ⟨keys, hkeys, -⟩ := Outcome.exists_eq_ok (SortKey.parseList "a + 9223372036854775808 desc")
    (fun _ => true) (by decide +kernel)
  obtain ⟨columns, hcolumns, -⟩ := Outcome.exists_eq_ok
    (Column.parseList "9223372036854775807 as n") (fun _ => true) (by decide +kernel)
  obtain ⟨es, hes, -⟩ := Outcome.exists_eq_ok (Expr.parseList "[1, 9223372036854775808], -2")
    (fun _ => true) (by decide +kernel)
  have hcanonical : formsMeet.isCanonical = true := rfl
  refine ⟨⟨.arr [.uint 9223372036854775808, .uint 18446744073709551615, .int 1], rfl, ?canonical⟩,
    ⟨e, he, (hparse _).1 e he⟩, ⟨keys, hkeys, (hparse _).2.1 keys hkeys⟩,
    ⟨columns, hcolumns, (hparse _).2.2.1 columns hcolumns⟩,
    ⟨es, hes, (hparse _).2.2.2 es hes⟩,
    (hcompare _ _ _ (.int Int64.maxValue) (.uint 9223372036854775808) rfl rfl).1 _ _ rfl rfl rfl rfl,
    ((hcompare _ _ _ (.uint 9223372036854775808) (.int Int64.maxValue) rfl rfl).2 rfl rfl).1 rfl,
    ((hcompare _ _ _ (.int Int64.maxValue) (.str "1") rfl rfl).2 rfl rfl).2 (by decide)⟩
  case canonical =>
    refine heval (array [.field ⟨[.member "unsigned"]⟩, .field ⟨[.member "total"]⟩, .literal (.int 1)])
      (.group [formsMeet] (some [("total", .uint 18446744073709551615)])) _ ?_ ?_ rfl
    · intro value hvalue
      obtain rfl : value = .int 1 := by simpa [nodes_eq_cons, children] using hvalue
      rfl
    · refine ⟨List.forall_mem_singleton.mpr hcanonical, fun members hmembers => ?_⟩
      obtain rfl := Option.some.inj hmembers
      exact List.forall_mem_singleton.mpr rfl

end Expr

end DocStore
