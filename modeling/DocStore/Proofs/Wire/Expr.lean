import DocStore.Wire.Expr
import DocStore.Proofs.Expr.Printable
import DocStore.Proofs.Value.Json
import DocStore.Proofs.Wire.Record

/-!
# Reading back expressions

A tree that was written by `Expr.toJson` is read back as the same tree if its literals are plain.
The induction is over the direct sub-expressions: a node is read back if they are (`nodeOfJson?`),
and their trees are less deep than the node's, so that the bound of the reader is enough for them.
-/

namespace DocStore

open Wire

/-! ## Names and paths -/

theorem BinaryOp.ofName?_name (op : BinaryOp) : BinaryOp.ofName? op.name = some op := by
  cases op <;> decide

theorem UnaryOp.ofName?_name (op : UnaryOp) : UnaryOp.ofName? op.name = some op := by
  cases op <;> decide

theorem ListForm.ofName?_name (form : ListForm) : ListForm.ofName? form.name = some form := by
  cases form <;> decide

theorem Segment.ofJson?_toJson (segment : Segment) :
    Segment.ofJson? segment.toJson = some segment := by
  cases segment <;> simp [Segment.ofJson?, Segment.toJson, Assoc.get?]

theorem Path.ofJson?_toJson (path : Path) : Path.ofJson? path.toJson = some path := by
  have hsegments : list? Segment.ofJson? (.arr (path.segments.map Segment.toJson))
      = some path.segments := list?_map fun segment _ => segment.ofJson?_toJson
  simp [Path.ofJson?, Path.toJson, Assoc.get?, hsegments]

theorem FunctionName.ofJson?_toJson (f : FunctionName) :
    FunctionName.ofJson? f.toJson = some f := by
  have hschema : optional? text? (ofOption .str f.schema) = some f.schema :=
    optional?_ofOption nofun fun _ _ => rfl
  simp [FunctionName.ofJson?, FunctionName.toJson, Assoc.get?, hschema]

namespace Expr

/-! ## Writing sub-expressions -/

theorem listToJson_eq_map (es : List Expr) : listToJson es = es.map toJson := by
  induction es with
  | nil => rfl
  | cons e rest ih => rw [listToJson, ih, List.map_cons]

theorem fieldsToJson_eq_map (fields : List (String × Expr)) :
    fieldsToJson fields = fields.map fun field => .arr [.str field.1, toJson field.2] := by
  induction fields with
  | nil => rfl
  | cons field rest ih => rw [fieldsToJson, ih, List.map_cons]

theorem optionToJson_eq_ofOption (e? : Option Expr) : optionToJson e? = ofOption toJson e? := by
  cases e? <;> rfl

theorem toJson_ne_null (e : Expr) : e.toJson ≠ .null := by
  cases e <;> nofun

/-- A sub-expression lies inside the brackets of its node. -/
theorem depth_toJson_lt_of_mem_children {e child : Expr} (h : child ∈ e.children) :
    child.toJson.depth < e.toJson.depth := by
  have hitem {es : List Expr} (hes : child ∈ es) :
      child.toJson.depth ≤ Json.depthOfItems (listToJson es) :=
    Json.depth_le_depthOfItems (listToJson_eq_map es ▸ List.mem_map_of_mem hes)
  cases e with
  | literal _ | field _ | placeholder _ _ | star => cases h
  | unary op operand =>
      obtain rfl := List.mem_singleton.mp h
      simp only [toJson, depth_tagged, Json.depthOfMembers]
      omega
  | binary _ left right | overlaps left right _ | isValue left right _ | regexp left right _ =>
      simp only [children, List.mem_cons, List.not_mem_nil, or_false] at h
      simp only [toJson, depth_tagged, Json.depthOfMembers]
      rcases h with rfl | rfl <;> omega
  | between target low high negated =>
      simp only [children, List.mem_cons, List.not_mem_nil, or_false] at h
      simp only [toJson, depth_tagged, Json.depthOfMembers]
      rcases h with rfl | rfl | rfl <;> omega
  | like target pattern escape negated =>
      simp only [children, List.mem_cons, Option.mem_toList] at h
      simp only [toJson, depth_tagged, Json.depthOfMembers]
      rcases h with rfl | rfl | rfl
      · omega
      · omega
      · rw [optionToJson]
        omega
  | call name items | array items =>
      have hle := hitem (show child ∈ items from h)
      simp only [toJson, depth_tagged, Json.depthOfMembers, Json.depth]
      omega
  | isIn target list negated form =>
      simp only [toJson, depth_tagged, Json.depthOfMembers, Json.depth]
      rcases List.mem_cons.mp h with rfl | h
      · omega
      · have hle := hitem h
        omega
  | object fields =>
      -- The child lies two levels down: in a pair, and that in the list of pairs.
      obtain ⟨⟨key, e⟩, hfield, rfl⟩ := List.mem_map.mp h
      have hpair : Json.arr [.str key, e.toJson] ∈ fieldsToJson fields :=
        fieldsToJson_eq_map fields ▸ List.mem_map_of_mem (f := fun field => _) hfield
      have hle := Json.depth_le_depthOfItems hpair
      simp only [Json.depth, Json.depthOfItems] at hle
      simp only [toJson, depth_tagged, Json.depthOfMembers, Json.depth]
      omega

/-! ## Literals -/

/-- Every literal of the tree is plain. -/
def isPlain (e : Expr) : Bool :=
  e.nodes.all fun
    | .literal value => value.isPlain
    | _ => true

theorem isPlain_literal (value : Value) : (literal value).isPlain = value.isPlain := by
  simp [isPlain, nodes]

theorem isPlain_of_mem_children {e child : Expr} (h : e.isPlain = true)
    (hchild : child ∈ e.children) : child.isPlain = true := by
  rw [isPlain, nodes_eq_cons, List.all_cons, Bool.and_eq_true] at h
  exact List.all_eq_true.mpr fun node hnode =>
    List.all_eq_true.mp h.2 node (List.mem_flatMap.mpr ⟨child, hchild, hnode⟩)

/-! ## Reading -/

/-- A node is read back if its sub-expressions are. -/
theorem nodeOfJson?_toJson {sub : Json → Option Expr} {e : Expr} (hplain : e.isPlain = true)
    (hsub : ∀ child ∈ e.children, sub child.toJson = some child) :
    nodeOfJson? sub e.toJson = some e := by
  have hlist {es : List Expr} (hes : ∀ child ∈ es, sub child.toJson = some child) :
      list? sub (.arr (listToJson es)) = some es := by
    rw [listToJson_eq_map]
    exact list?_map hes
  cases e with
  | literal value =>
      have hvalue : Value.ofJson value.toJson = value :=
        Value.ofJson_toJson (isPlain_literal value ▸ hplain)
      simp [nodeOfJson?, toJson, Assoc.get?, hvalue]
  | field path => simp [nodeOfJson?, toJson, Assoc.get?, path.ofJson?_toJson]
  | placeholder name position => simp [nodeOfJson?, toJson, Assoc.get?]
  | star => simp [nodeOfJson?, toJson]
  | unary op operand =>
      simp only [children, List.forall_mem_cons] at hsub
      simp [nodeOfJson?, toJson, Assoc.get?, UnaryOp.ofName?_name, hsub]
  | binary op left right =>
      simp only [children, List.forall_mem_cons] at hsub
      simp [nodeOfJson?, toJson, Assoc.get?, BinaryOp.ofName?_name, hsub]
  | call name args =>
      have hargs : list? sub (.arr (listToJson args)) = some args := hlist hsub
      simp [nodeOfJson?, toJson, Assoc.get?, FunctionName.ofJson?_toJson, hargs]
  | isIn target list negated form =>
      simp only [children, List.forall_mem_cons] at hsub
      simp [nodeOfJson?, toJson, Assoc.get?, ListForm.ofName?_name, hsub.1, hlist hsub.2]
  | overlaps left right negated | isValue left right negated | regexp left right negated =>
      simp only [children, List.forall_mem_cons] at hsub
      simp [nodeOfJson?, toJson, Assoc.get?, hsub]
  | like target pattern escape negated =>
      simp only [children, List.forall_mem_cons] at hsub
      have hescape : optional? sub (optionToJson escape) = some escape := by
        rw [optionToJson_eq_ofOption]
        exact optional?_ofOption toJson_ne_null fun e he => hsub.2.2 e (Option.mem_toList.mpr he)
      simp [nodeOfJson?, toJson, Assoc.get?, hsub.1, hsub.2.1, hescape]
  | between target low high negated =>
      simp only [children, List.forall_mem_cons] at hsub
      simp [nodeOfJson?, toJson, Assoc.get?, hsub]
  | array items =>
      have hitems : list? sub (.arr (listToJson items)) = some items := hlist hsub
      simp [nodeOfJson?, toJson, Assoc.get?, hitems]
  | object fields =>
      have hfields : list? (pair? text? sub) (.arr (fieldsToJson fields)) = some fields := by
        rw [fieldsToJson_eq_map]
        exact list?_map fun field hfield =>
          pair?_arr rfl (hsub field.2 (List.mem_map_of_mem hfield))
      simp [nodeOfJson?, toJson, Assoc.get?, hfields]

theorem ofJsonWithin?_toJson (e : Expr) : e.isPlain = true →
    ∀ {depth : Nat}, e.toJson.depth ≤ depth → ofJsonWithin? depth e.toJson = some e := by
  induction e using children_induction with
  | step e ih =>
      intro hplain depth hdepth
      -- The node itself takes one level of the bound; the rest is enough for each child.
      have hpos : 0 < e.toJson.depth := by cases e <;> exact Nat.succ_pos _
      obtain ⟨bound, rfl⟩ := Nat.exists_eq_succ_of_ne_zero (by omega : depth ≠ 0)
      refine nodeOfJson?_toJson hplain fun child hchild => ?_
      have hlt := depth_toJson_lt_of_mem_children hchild
      exact ih child hchild (isPlain_of_mem_children hplain hchild) (by omega)

theorem ofJson?_toJson {e : Expr} (h : e.isPlain = true) : ofJson? e.toJson = some e :=
  ofJsonWithin?_toJson e h (Nat.le_refl _)

end Expr

end DocStore
