import DocStore.Binding
import DocStore.Proofs.Expr.Tree
import Mathlib.Data.List.Basic

/-!
# Filling in placeholders

`Expr.fill values` puts a literal in the place of a placeholder that `values` has a value for, and
leaves every other node as it is; binding is filling with what the bindings hold.  A placeholder and
a literal are both leaves, so filling a tree neither adds nor drops a node, and the nodes of the
result are those of the tree, each filled in (`nodes_map_fill`).  From this follow which placeholders
are left (`mentions_map_fill`), that nothing else changes (`labels_map_fill`), and that the second
of two fillings reaches only what the first has left (`map_fill_map_fill`).
-/

namespace DocStore.Expr

/-- Replace the direct sub-expressions by their images. -/
def mapChildren (g : Expr → Expr) : Expr → Expr
  | .literal value => .literal value
  | .field path => .field path
  | .placeholder name position => .placeholder name position
  | .star => .star
  | .unary op operand => .unary op (g operand)
  | .binary op left right => .binary op (g left) (g right)
  | .call name args => .call name (args.map g)
  | .isIn target list negated form => .isIn (g target) (list.map g) negated form
  | .overlaps left right negated => .overlaps (g left) (g right) negated
  | .like target pattern escape negated => .like (g target) (g pattern) (escape.map g) negated
  | .between target low high negated => .between (g target) (g low) (g high) negated
  | .isValue target value negated => .isValue (g target) (g value) negated
  | .regexp target pattern negated => .regexp (g target) (g pattern) negated
  | .array items => .array (items.map g)
  | .object fields => .object (fields.map fun field => (field.1, g field.2))

/-- The node by itself, with `*` in the place of each direct sub-expression. -/
def label (e : Expr) : Expr := e.mapChildren fun _ => .star

/-- The literal for a placeholder that has a value, and any other node itself. -/
def fill (values : String → Option Value) : Expr → Expr
  | .placeholder name position =>
    match values name with
    | some value => .literal value
    | none => .placeholder name position
  | other => other

/-- A placeholder of this name is somewhere in the tree. -/
def Mentions (e : Expr) (name : String) : Prop :=
  ∃ position, .placeholder name position ∈ e.nodes

variable {values more : String → Option Value} {f g h : Expr → Expr} {e node : Expr}
  {name : String} {position : UInt32}

/-! ## A node and what is below it -/

theorem mapList_eq_map (f : Expr → Expr) (es : List Expr) : mapList f es = es.map (map f) := by
  induction es with
  | nil => rfl
  | cons e rest ih => rw [mapList, ih, List.map_cons]

theorem mapOption_eq_map (f : Expr → Expr) (e? : Option Expr) :
    mapOption f e? = e?.map (map f) := by
  cases e? <;> rfl

theorem mapFields_eq_map (f : Expr → Expr) (fields : List (String × Expr)) :
    mapFields f fields = fields.map fun field => (field.1, field.2.map f) := by
  induction fields with
  | nil => rfl
  | cons field rest ih => rw [mapFields, ih, List.map_cons]

theorem map_eq (f : Expr → Expr) (e : Expr) : e.map f = f (e.mapChildren (map f)) := by
  cases e <;> simp [map, mapChildren, mapList_eq_map, mapOption_eq_map, mapFields_eq_map]

theorem children_mapChildren (g : Expr → Expr) (e : Expr) :
    (e.mapChildren g).children = e.children.map g := by
  cases e <;> simp [mapChildren, children, Option.toList_map]

theorem mapChildren_mapChildren (g h : Expr → Expr) (e : Expr) :
    (e.mapChildren g).mapChildren h = e.mapChildren fun child => h (g child) := by
  cases e <;> simp [mapChildren, Function.comp_def]

theorem mapChildren_congr (heq : ∀ child ∈ e.children, g child = h child) :
    e.mapChildren g = e.mapChildren h := by
  cases e with
  | like target pattern escape negated =>
      have hescape : escape.map g = escape.map h :=
        Option.map_congr fun child hchild => heq child (by simp [children, hchild])
      simp_all [mapChildren, children]
  | object fields =>
      have hfields : ∀ field ∈ fields, (field.1, g field.2) = (field.1, h field.2) :=
        fun field hfield => by rw [heq field.2 (List.mem_map_of_mem hfield)]
      exact congrArg object (List.map_congr_left hfields)
  | _ => simp_all [mapChildren, children]

/-! ## Filled nodes -/

theorem fill_of_value {value : Value} (hvalue : values name = some value) :
    fill values (.placeholder name position) = .literal value := by
  rw [fill, hvalue]

theorem fill_of_none (hnone : values name = none) :
    fill values (.placeholder name position) = .placeholder name position := by
  rw [fill, hnone]

theorem fill_mapChildren (values : String → Option Value) (g : Expr → Expr) (e : Expr) :
    fill values (e.mapChildren g) = (fill values e).mapChildren g := by
  cases e with
  | placeholder name position =>
      cases hvalue : values name <;> simp [mapChildren, fill_of_value, fill_of_none, hvalue]
  | _ => rfl

theorem children_fill (values : String → Option Value) (e : Expr) :
    (fill values e).children = e.children := by
  cases e with
  | placeholder name position =>
      cases hvalue : values name <;> simp [children, fill_of_value, fill_of_none, hvalue]
  | _ => rfl

theorem fill_fill (e : Expr) :
    fill more (fill values e) = fill (fun name => (values name).or (more name)) e := by
  cases e with
  | placeholder name position => cases hvalue : values name <;> simp [fill, hvalue]
  | _ => rfl

theorem fill_congr (heq : ∀ name position, e = .placeholder name position → values name = more name) :
    fill values e = fill more e := by
  cases e with
  | placeholder name position => rw [fill, fill, heq name position rfl]
  | _ => rfl

/-! ## Filled trees -/

/-- A filled tree is its root filled in, over filled children. -/
theorem map_fill_eq (values : String → Option Value) (e : Expr) :
    e.map (fill values) = (fill values e).mapChildren (map (fill values)) := by
  rw [map_eq, fill_mapChildren]

theorem children_map_fill (values : String → Option Value) (e : Expr) :
    (e.map (fill values)).children = e.children.map (map (fill values)) := by
  rw [map_fill_eq, children_mapChildren, children_fill]

theorem nodes_map_fill (values : String → Option Value) (e : Expr) :
    (e.map (fill values)).nodes = e.nodes.map (map (fill values)) := by
  induction e using children_induction with
  | step e ih =>
      have hchildren : (e.children.map (map (fill values))).flatMap nodes
          = (e.children.flatMap nodes).map (map (fill values)) := by
        rw [List.flatMap_map, List.map_flatMap]
        exact List.flatMap_congr fun child hchild => ih child hchild
      rw [nodes_eq_cons (e.map _), nodes_eq_cons e, children_map_fill, hchildren, List.map_cons]

/-- Filling in what is below a node does not change the node. -/
theorem label_map_fill (values : String → Option Value) (e : Expr) :
    (e.map (fill values)).label = (fill values e).label := by
  rw [map_fill_eq, label, label, mapChildren_mapChildren]

/-- Node by node, a filled tree is the tree with its placeholders filled in. -/
theorem labels_map_fill (values : String → Option Value) (e : Expr) :
    (e.map (fill values)).nodes.map label = e.nodes.map fun node => (fill values node).label := by
  rw [nodes_map_fill, List.map_map]
  exact List.map_congr_left fun node _ => label_map_fill values node

theorem map_fill_eq_placeholder_iff :
    node.map (fill values) = .placeholder name position
      ↔ node = .placeholder name position ∧ values name = none := by
  cases node with
  | placeholder other place =>
      cases hvalue : values other with
      | some value =>
          rw [map, fill_of_value hvalue]
          refine iff_of_false (by simp) ?_
          rintro ⟨heq, hnone⟩
          cases heq
          simp [hvalue] at hnone
      | none =>
          rw [map, fill_of_none hvalue]
          refine ⟨fun heq => ⟨heq, ?_⟩, And.left⟩
          cases heq
          exact hvalue
  | _ => simp [map, fill]

/-- The placeholders that are left are those without a value. -/
theorem mentions_map_fill :
    (e.map (fill values)).Mentions name ↔ e.Mentions name ∧ values name = none := by
  simp only [Mentions, nodes_map_fill, List.mem_map, map_fill_eq_placeholder_iff]
  constructor
  · rintro ⟨position, node, hnode, rfl, hnone⟩
    exact ⟨⟨position, hnode⟩, hnone⟩
  · rintro ⟨⟨position, hnode⟩, hnone⟩
    exact ⟨position, _, hnode, rfl, hnone⟩

theorem mem_firstOccurrences {names : List String} :
    name ∈ firstOccurrences names ↔ name ∈ names := by
  have hfold : ∀ seen, name ∈ names.foldl
      (fun seen name => if seen.contains name then seen else seen ++ [name]) seen
        ↔ name ∈ seen ∨ name ∈ names := by
    induction names with
    | nil => simp
    | cons first rest ih =>
        intro seen
        rw [List.foldl_cons, ih]
        split
        next hseen =>
          rw [List.contains_iff_mem] at hseen
          rw [List.mem_cons]
          refine ⟨Or.imp_right Or.inr, ?_⟩
          rintro (hname | rfl | hname)
          · exact .inl hname
          · exact .inl hseen
          · exact .inr hname
        next => rw [List.mem_append, List.mem_singleton, List.mem_cons, or_assoc]
  rw [firstOccurrences, hfold]
  simp

theorem placeholderName?_eq_some_iff :
    node.placeholderName? = some name ↔ ∃ position, node = .placeholder name position := by
  cases node <;> simp [placeholderName?]

/-- The names that an expression lists are those of its placeholders. -/
theorem mem_placeholderNames : name ∈ e.placeholderNames ↔ e.Mentions name := by
  rw [placeholderNames, mem_firstOccurrences, List.mem_filterMap, Mentions]
  constructor
  · rintro ⟨node, hnode, hname⟩
    obtain ⟨position, rfl⟩ := placeholderName?_eq_some_iff.mp hname
    exact ⟨position, hnode⟩
  · rintro ⟨position, hnode⟩
    exact ⟨_, hnode, rfl⟩

theorem Mentions.of_child {child : Expr} (hchild : child ∈ e.children)
    (hname : child.Mentions name) : e.Mentions name := by
  obtain ⟨position, hnode⟩ := hname
  refine ⟨position, ?_⟩
  rw [nodes_eq_cons]
  exact List.mem_cons_of_mem _ (List.mem_flatMap.mpr ⟨child, hchild, hnode⟩)

/-- What the second filling finds is what the first has left. -/
theorem map_fill_map_fill (e : Expr) :
    (e.map (fill values)).map (fill more)
      = e.map (fill fun name => (values name).or (more name)) := by
  induction e using children_induction with
  | step e ih =>
      rw [map_fill_eq more, map_fill_eq values, fill_mapChildren, fill_fill,
        mapChildren_mapChildren, map_fill_eq]
      apply mapChildren_congr
      intro child hchild
      rw [children_fill] at hchild
      exact ih child hchild

/-- Only the values of the names that occur matter. -/
theorem map_fill_congr (heq : ∀ name, e.Mentions name → values name = more name) :
    e.map (fill values) = e.map (fill more) := by
  induction e using children_induction with
  | step e ih =>
      have hroot : fill values e = fill more e := by
        apply fill_congr
        rintro name position rfl
        exact heq name ⟨position, List.mem_cons_self⟩
      rw [map_fill_eq, map_fill_eq, hroot]
      apply mapChildren_congr
      intro child hchild
      rw [children_fill] at hchild
      exact ih child hchild fun name hname => heq name (hname.of_child hchild)

/-- Where no placeholder has a value nothing changes. -/
theorem map_fill_none (e : Expr) : e.map (fill fun _ => none) = e := by
  induction e using children_induction with
  | step e ih =>
      have hroot : fill (fun _ => none) e = e := by cases e <;> rfl
      have hself : e.mapChildren id = e := by cases e <;> simp [mapChildren]
      rw [map_fill_eq, hroot, mapChildren_congr (h := id) ih, hself]

end DocStore.Expr
