import DocStore.Expr.Basic

/-!
# The tree of an expression

A tree is its root and the trees of its direct sub-expressions: an induction over those reaches
every tree, and the nodes of a tree are its root and their nodes.
-/

namespace DocStore.Expr

/-! ## Induction -/

theorem sizeOf_lt_of_mem_children {e child : Expr} (h : child ∈ e.children) :
    sizeOf child < sizeOf e := by
  have hlist : ∀ {es : List Expr}, child ∈ es → sizeOf child < sizeOf es := List.sizeOf_lt_of_mem
  have hself : sizeOf child < 1 + sizeOf child := by omega
  cases e with
  | literal _ | field _ | placeholder _ _ | star => cases h
  | unary op operand =>
      obtain rfl := List.mem_singleton.mp h
      simp only [unary.sizeOf_spec]
      omega
  | binary _ left right | overlaps left right _ | isValue left right _ | regexp left right _ =>
      simp only [children, List.mem_cons, List.not_mem_nil, or_false] at h
      simp only [binary.sizeOf_spec, overlaps.sizeOf_spec, isValue.sizeOf_spec, regexp.sizeOf_spec]
      rcases h with rfl | rfl <;> omega
  | between target low high negated =>
      simp only [children, List.mem_cons, List.not_mem_nil, or_false] at h
      simp only [between.sizeOf_spec]
      rcases h with rfl | rfl | rfl <;> omega
  | like target pattern escape negated =>
      simp only [children, List.mem_cons, Option.mem_toList] at h
      simp only [like.sizeOf_spec]
      rcases h with rfl | rfl | h
      · omega
      · omega
      · subst h
        simp only [Option.some.sizeOf_spec]
        omega
  | call name args =>
      have hargs := hlist h
      simp only [call.sizeOf_spec]
      simp only [children] at hargs
      omega
  | array items =>
      have hitems := hlist h
      simp only [array.sizeOf_spec]
      simp only [children] at hitems
      omega
  | isIn target list negated form =>
      simp only [isIn.sizeOf_spec]
      rcases List.mem_cons.mp h with rfl | h
      · omega
      · have hitem := hlist h
        omega
  | object fields =>
      obtain ⟨⟨key, e⟩, hfield, rfl⟩ := List.mem_map.mp h
      have hlt := List.sizeOf_lt_of_mem hfield
      simp only [object.sizeOf_spec]
      simp only [Prod.mk.sizeOf_spec] at hlt
      omega

/-- What holds of a tree if it holds of its direct sub-expressions holds of every tree. -/
theorem children_induction {motive : Expr → Prop}
    (step : ∀ e : Expr, (∀ child ∈ e.children, motive child) → motive e) (e : Expr) : motive e :=
  step e fun child h =>
    have := sizeOf_lt_of_mem_children h
    children_induction step child
termination_by sizeOf e

/-! ## Nodes -/

theorem nodesOfList_eq_flatMap (es : List Expr) : nodesOfList es = es.flatMap nodes := by
  induction es with
  | nil => rfl
  | cons e rest ih => rw [nodesOfList, ih, List.flatMap_cons]

theorem nodesOfFields_eq_flatMap (fields : List (String × Expr)) :
    nodesOfFields fields = fields.flatMap fun field => field.2.nodes := by
  induction fields with
  | nil => rfl
  | cons field rest ih => rw [nodesOfFields, ih, List.flatMap_cons]

theorem nodesOfOption_eq_flatMap (e? : Option Expr) :
    nodesOfOption e? = e?.toList.flatMap nodes := by
  cases e? with
  | none => rfl
  | some e => exact (List.flatMap_singleton ..).symm

theorem nodes_eq_cons (e : Expr) : e.nodes = e :: e.children.flatMap nodes := by
  cases e <;> simp [nodes, children, nodesOfList_eq_flatMap, nodesOfFields_eq_flatMap,
    nodesOfOption_eq_flatMap, List.flatMap_map]

end DocStore.Expr
