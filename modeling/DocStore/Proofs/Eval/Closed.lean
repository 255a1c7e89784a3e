import DocStore.Eval
import DocStore.Proofs.Expr.Tree
import DocStore.Proofs.Outcome
import DocStore.Proofs.Value.Tree

/-!
# What evaluation keeps

Evaluation makes values out of those in the scope and in the literals of the expression: it takes
them apart, puts them together into arrays and objects, and computes new scalars.  `Eval.Closed P`
says that `P` holds of whatever is made in these ways from values of which it holds.  Main statement:
`Eval.Closed.eval`, such a `P` holds of the value of an expression.
-/

namespace DocStore

open Value

/-! ## Where values come from -/

/-- `P` holds of all values in which fields are looked up. -/
def Scope.Holds (P : Value → Prop) : Scope → Prop
  | .row r => P r
  | .group rows aliases =>
    (∀ row ∈ rows, P row) ∧ ∀ members, aliases = some members → ∀ member ∈ members, P member.2

/-- `P` holds of all literals of an expression. -/
def Expr.LiteralsHold (P : Value → Prop) (e : Expr) : Prop :=
  ∀ value, .literal value ∈ e.nodes → P value

/-- The value is one that an operator or a function may compute: null, a truth value, a number or a
text, but no integer beyond 64 bits with a sign. -/
def Value.isComputed : Value → Bool
  | .null | .bool _ | .int _ | .float _ | .str _ => true
  | _ => false

namespace Eval

/-- What evaluation makes of values of which `P` holds is again such a value. -/
structure Closed (P : Value → Prop) : Prop where
  computed : ∀ v : Value, v.isComputed = true → P v
  uint : ∀ n : UInt64, Int64.maxValue.toInt < n.toNat → P (.uint n)
  arr : ∀ items, P (.arr items) ↔ ∀ v ∈ items, P v
  members : ∀ members, P (.obj members) → ∀ member ∈ members, P member.2
  obj : ∀ members : Document, (Assoc.keys members).Nodup → (∀ member ∈ members, P member.2) →
    P (.obj members)

end Eval

variable {P : Value → Prop} {e : Expr} {scope : Scope} {v : Value} {values rows : List Value}

theorem Expr.LiteralsHold.of_child {child : Expr} (h : e.LiteralsHold P)
    (hchild : child ∈ e.children) : child.LiteralsHold P := by
  intro value hvalue
  refine h value ?_
  rw [nodes_eq_cons]
  exact List.mem_cons_of_mem _ (List.mem_flatMap.mpr ⟨child, hchild, hvalue⟩)

/-! ## Lists of expressions -/

theorem Expr.evalList_eq_mapM (es : List Expr) (scope : Scope) :
    evalList es scope = es.mapM fun e => e.eval scope := by
  induction es with
  | nil => rfl
  | cons e rest ih => rw [evalList, ih, List.mapM_cons]

theorem Expr.evalFields_eq_mapM (fields : List (String × Expr)) (scope : Scope) :
    evalFields fields scope
      = fields.mapM fun field => do return (field.1, ← field.2.eval scope) := by
  induction fields with
  | nil => rfl
  | cons field rest ih =>
      obtain ⟨name, e⟩ := field
      rw [evalFields, ih, List.mapM_cons]
      simp only [bind_assoc, pure_bind]

/-- An aggregate counts the rows, or computes from the values of its argument. -/
theorem Expr.evalAggregate_eq_ok {f : String} {args : List Expr}
    (h : evalAggregate f args rows = .ok v) :
    v = .ofCount rows.length
      ∨ ∃ arg values, args = [arg] ∧ rows.mapM (fun row => arg.eval (.row row)) = .ok values
        ∧ v = Function.aggregate f (values.filter fun v => !v.isNull) := by
  unfold evalAggregate at h
  split at h
  · next arg =>
      -- Whether the argument is `*`, and then whether the rows are counted.
      split at h
      all_goals
        split at h
        · cases h
          exact .inl rfl
        · obtain ⟨values, hvalues, h⟩ := Outcome.bind_eq_ok.mp h
          cases h
          exact .inr ⟨_, values, rfl, hvalues, rfl⟩
  · cases h

/-! ## Computed values -/

namespace Arithmetic

theorem isComputed_combine (onInts : Int64 → Int64 → Option Int64) (onFloats : Float → Float → Float)
    (l r : Number) : (combine onInts onFloats l r).isComputed = true := by
  unfold combine
  split
  · split <;> rfl
  · rfl

theorem isComputed_onNumbers (op : BinaryOp) (l r : Number) :
    (onNumbers op l r).isComputed = true := by
  cases op
  case add | sub | mul => exact isComputed_combine ..
  case div =>
    rw [onNumbers]
    split <;> rfl
  case mod =>
    rw [onNumbers]
    split
    · rfl
    · exact isComputed_combine ..
  all_goals rfl

theorem isComputed_binary (op : BinaryOp) (l r : Value) : (binary op l r).isComputed = true := by
  unfold binary
  split
  · rfl
  · split
    · rfl
    · split
      · exact isComputed_onNumbers ..
      · rfl

theorem isComputed_negate (n : Number) : (negate n).isComputed = true := by
  unfold negate
  split
  · split <;> rfl
  · rfl

theorem isComputed_absolute (n : Number) : (absolute n).isComputed = true := by
  unfold absolute
  split
  · split <;> rfl
  · rfl

theorem isComputed_elim (n? : Option Number) {f : Number → Value}
    (h : ∀ n, (f n).isComputed = true) : (n?.elim .null f).isComputed = true := by
  cases n? with
  | none => rfl
  | some n => exact h n

theorem isComputed_unary (op : UnaryOp) (v : Value) : (unary op v).isComputed = true := by
  unfold unary
  split
  · rfl
  · cases op with
    | not => rfl
    | neg => exact isComputed_elim _ isComputed_negate
    | bitNot => exact isComputed_elim _ fun _ => rfl

theorem isComputed_conjunction (l r : Value) : (conjunction l r).isComputed = true := by
  unfold conjunction
  split
  · rfl
  · split <;> rfl

theorem isComputed_disjunction (l r : Value) : (disjunction l r).isComputed = true := by
  unfold disjunction
  split
  · rfl
  · split <;> rfl

end Arithmetic

/-! ## Functions -/

namespace Function

theorem least_mem : least v values ∈ v :: values := by
  induction values generalizing v with
  | nil => exact List.mem_cons_self
  | cons w rest ih =>
      -- Of the first two values one is left.
      rcases List.mem_cons.mp ih with heq | hmem
      · rw [least, heq]
        split <;> simp
      · exact List.mem_cons_of_mem _ (List.mem_cons_of_mem _ hmem)

theorem greatest_mem : greatest v values ∈ v :: values := by
  induction values generalizing v with
  | nil => exact List.mem_cons_self
  | cons w rest ih =>
      -- Of the first two values one is left.
      rcases List.mem_cons.mp ih with heq | hmem
      · rw [greatest, heq]
        split <;> simp
      · exact List.mem_cons_of_mem _ (List.mem_cons_of_mem _ hmem)

end Function

namespace Eval.Closed

variable (h : Closed P)
include h

theorem ofCount (n : Nat) : P (.ofCount n) := by
  rw [Value.ofCount, ofUInt64]
  split
  · exact h.computed _ rfl
  · next hbig => exact h.uint _ (Int.not_le.mp hbig)

theorem onText {f : String → Value} (hf : ∀ s, P (f s)) (v : Value) : P (Function.onText f v) := by
  unfold Function.onText
  split
  · exact h.computed _ rfl
  · exact hf _

theorem jsonLength (v : Value) : P (Function.jsonLength v) := by
  cases v with
  | arr items | obj members => exact h.ofCount _
  | _ => exact h.computed _ rfl

/-- The first value that is not null, or null. -/
theorem firstOf (hvalues : ∀ v ∈ values, P v) :
    P ((values.find? fun v => !v.isNull).getD .null) := by
  cases hfind : values.find? fun v => !v.isNull with
  | none => exact h.computed _ rfl
  | some v => exact hvalues v (List.mem_of_find?_eq_some hfind)

theorem call {name : String} (hvalues : ∀ v ∈ values, P v)
    (hcall : Function.call name values = .ok v) : P v := by
  unfold Function.call at hcall
  split at hcall
  all_goals cases hcall
  · split <;> exact h.computed _ rfl
  · exact h.onText (fun _ => h.computed _ rfl) _
  · exact h.onText (fun _ => h.computed _ rfl) _
  · exact h.onText (fun _ => h.ofCount _) _
  · exact h.onText (fun _ => h.ofCount _) _
  · exact h.computed _ (Arithmetic.isComputed_elim _ Arithmetic.isComputed_absolute)
  · exact h.firstOf hvalues
  · exact h.firstOf hvalues
  · exact h.jsonLength _

theorem aggregate (name : String) (hvalues : ∀ v ∈ values, P v) :
    P (Function.aggregate name values) := by
  unfold Function.aggregate
  split
  · exact h.ofCount _
  · exact h.computed _ rfl
  · unfold Function.sum
    dsimp only
    split <;> exact h.computed _ rfl
  · exact h.computed _ rfl
  · exact hvalues _ Function.least_mem
  · exact hvalues _ Function.greatest_mem

/-! ## Fields -/

theorem descendants (hv : P v) : ∀ w ∈ v.descendants, P w := by
  induction v using tree_induction with
  | arr items ih =>
      rw [Value.descendants, descendantsOfItems_eq_flatMap, List.forall_mem_cons]
      refine ⟨hv, fun w hw => ?_⟩
      obtain ⟨item, hitem, hw⟩ := List.mem_flatMap.mp hw
      exact ih item hitem ((h.arr items).mp hv item hitem) w hw
  | obj members ih =>
      rw [Value.descendants, descendantsOfMembers_eq_flatMap, List.forall_mem_cons]
      refine ⟨hv, fun w hw => ?_⟩
      obtain ⟨member, hmember, hw⟩ := List.mem_flatMap.mp hw
      exact ih member hmember (h.members members hv member hmember) w hw
  | _ => exact fun w hw => List.mem_singleton.mp hw ▸ hv

theorem step (segment : Segment) (hv : P v) : ∀ w ∈ segment.step v, P w := by
  intro w hw
  cases segment with
  | member name =>
      cases v with
      | obj members => exact h.members members hv _ (Assoc.mem_of_get? (Option.mem_toList.mp hw))
      | _ => cases hw
  | memberWildcard =>
      cases v with
      | obj members =>
          obtain ⟨member, hmember, rfl⟩ := List.mem_map.mp hw
          exact h.members members hv member hmember
      | _ => cases hw
  | index n =>
      cases v with
      | arr items => exact (h.arr items).mp hv w (List.mem_of_getElem? (Option.mem_toList.mp hw))
      | _ =>
          simp only [Segment.step] at hw
          split at hw
          · exact List.mem_singleton.mp hw ▸ hv
          · cases hw
  | indexWildcard =>
      cases v with
      | arr items => exact (h.arr items).mp hv w hw
      | _ => cases hw
  | doubleWildcard => exact h.descendants hv w hw

theorem resolve (path : Path) (hv : P v) : ∀ w ∈ path.resolve v, P w := by
  have hfold : ∀ (segments : List Segment) (values : List Value), (∀ w ∈ values, P w) →
      ∀ w ∈ segments.foldl (fun values segment => values.flatMap segment.step) values, P w := by
    intro segments
    induction segments with
    | nil => exact fun _ hvalues => hvalues
    | cons segment rest ih =>
        intro values hvalues
        refine ih _ fun w hw => ?_
        obtain ⟨u, hu, hw⟩ := List.mem_flatMap.mp hw
        exact h.step segment (hvalues u hu) w hw
  exact hfold path.segments [v] fun w hw => List.mem_singleton.mp hw ▸ hv

theorem valueIn (path : Path) (hv : P v) : P (path.valueIn v) := by
  have hvalues := h.resolve path hv
  rw [Path.valueIn]
  split
  · cases hresolved : path.resolve v with
    | nil => exact h.computed _ rfl
    | cons first rest => exact hvalues first (hresolved ▸ List.mem_cons_self)
  · split
    · exact h.computed _ rfl
    · exact (h.arr _).mpr hvalues

theorem fieldValue (path : Path) (hscope : scope.Holds P) : P (scope.fieldValue path) := by
  cases scope with
  | row r => exact h.valueIn path hscope
  | group rows aliases =>
      obtain ⟨hrows, haliases⟩ := hscope
      unfold Scope.fieldValue
      dsimp only
      split
      · next value halias =>
          unfold Scope.alias? at halias
          split at halias
          · exact haliases _ rfl _ (Assoc.mem_of_get? halias)
          · cases halias
      · exact h.valueIn path (hrows _ List.mem_cons_self)
      · exact h.computed _ rfl

/-! ## Expressions -/

theorem evalAggregate {f : String} {args : List Expr}
    (hargs : ∀ arg ∈ args, ∀ row ∈ rows, ∀ v, arg.eval (.row row) = .ok v → P v)
    (heval : Expr.evalAggregate f args rows = .ok v) : P v := by
  rcases Expr.evalAggregate_eq_ok heval with rfl | ⟨arg, values, rfl, hvalues, rfl⟩
  · exact h.ofCount _
  · have hall := Outcome.forall_mem_of_mapM (hargs arg List.mem_cons_self) hvalues
    exact h.aggregate f fun v hv => hall v (List.mem_of_mem_filter hv)

/-- What holds in the scope and of the literals holds of the value of an expression. -/
theorem eval (hliterals : e.LiteralsHold P) (hscope : scope.Holds P)
    (heval : e.eval scope = .ok v) : P v := by
  induction e using Expr.children_induction generalizing scope v with
  | step e ih =>
      have hchildren : ∀ child ∈ e.children, ∀ v, child.eval scope = .ok v → P v :=
        fun child hchild v => ih child hchild (hliterals.of_child hchild) hscope
      cases e with
      | literal value =>
          cases heval
          exact hliterals v List.mem_cons_self
      | field path =>
          cases heval
          exact h.fieldValue path hscope
      | placeholder name position | star => cases heval
      | unary op operand =>
          obtain ⟨w, -, heval⟩ := Outcome.bind_eq_ok.mp heval
          cases heval
          exact h.computed _ (Arithmetic.isComputed_unary op w)
      | binary op left right =>
          obtain ⟨l, -, heval⟩ := Outcome.bind_eq_ok.mp heval
          split at heval
          · split at heval
            · cases heval
              exact h.computed _ rfl
            · obtain ⟨r, -, heval⟩ := Outcome.bind_eq_ok.mp heval
              cases heval
              exact h.computed _ (Arithmetic.isComputed_conjunction l r)
          · split at heval
            · cases heval
              exact h.computed _ rfl
            · obtain ⟨r, -, heval⟩ := Outcome.bind_eq_ok.mp heval
              cases heval
              exact h.computed _ (Arithmetic.isComputed_disjunction l r)
          · obtain ⟨r, -, heval⟩ := Outcome.bind_eq_ok.mp heval
            cases heval
            exact h.computed _ (Arithmetic.isComputed_binary op l r)
      | call name args =>
          simp only [Expr.eval] at heval
          split at heval
          · split at heval
            · next rows aliases =>
                refine h.evalAggregate (fun arg harg row hrow v => ?_) heval
                have hinRow : (Scope.row row).Holds P := hscope.1 row hrow
                exact ih arg harg (hliterals.of_child harg) hinRow
            · cases heval
          · obtain ⟨values, hvalues, heval⟩ := Outcome.bind_eq_ok.mp heval
            rw [Expr.evalList_eq_mapM] at hvalues
            exact h.call (Outcome.forall_mem_of_mapM hchildren hvalues) heval
      | array items =>
          obtain ⟨values, hvalues, heval⟩ := Outcome.bind_eq_ok.mp heval
          cases heval
          rw [Expr.evalList_eq_mapM] at hvalues
          exact (h.arr values).mpr (Outcome.forall_mem_of_mapM hchildren hvalues)
      | object fields =>
          obtain ⟨members, hmembers, heval⟩ := Outcome.bind_eq_ok.mp heval
          cases heval
          rw [Expr.evalFields_eq_mapM] at hmembers
          have hall : ∀ member ∈ members, P member.2 := by
            refine Outcome.forall_mem_of_mapM (fun field hfield member hmember => ?_) hmembers
            obtain ⟨w, hw, hmember⟩ := Outcome.bind_eq_ok.mp hmember
            cases hmember
            exact hchildren field.2 (List.mem_map_of_mem hfield) w hw
          exact h.obj _ (Assoc.nodup_keys_insertAll members List.nodup_nil)
            fun member hmember => (Assoc.mem_or_mem_of_mem_insertAll hmember).elim nofun (hall member)
      | isIn target list negated form =>
          obtain ⟨t, -, heval⟩ := Outcome.bind_eq_ok.mp heval
          split at heval
          · cases heval
            exact h.computed _ rfl
          · split at heval
            · obtain ⟨c, -, heval⟩ := Outcome.bind_eq_ok.mp heval
              split at heval <;> cases heval <;> exact h.computed _ rfl
            all_goals
              obtain ⟨found, -, heval⟩ := Outcome.bind_eq_ok.mp heval
              cases heval
              exact h.computed _ rfl
      | overlaps left right negated =>
          obtain ⟨l, -, heval⟩ := Outcome.bind_eq_ok.mp heval
          obtain ⟨r, -, heval⟩ := Outcome.bind_eq_ok.mp heval
          split at heval <;> cases heval <;> exact h.computed _ rfl
      | like target pattern escape negated =>
          obtain ⟨t, -, heval⟩ := Outcome.bind_eq_ok.mp heval
          obtain ⟨p, -, heval⟩ := Outcome.bind_eq_ok.mp heval
          split at heval
          · cases heval
            exact h.computed _ rfl
          · obtain ⟨c, -, heval⟩ := Outcome.bind_eq_ok.mp heval
            obtain ⟨matched, -, heval⟩ := Outcome.bind_eq_ok.mp heval
            cases heval
            exact h.computed _ rfl
      | between target low high negated =>
          obtain ⟨t, -, heval⟩ := Outcome.bind_eq_ok.mp heval
          obtain ⟨l, -, heval⟩ := Outcome.bind_eq_ok.mp heval
          obtain ⟨u, -, heval⟩ := Outcome.bind_eq_ok.mp heval
          split at heval <;> cases heval <;> exact h.computed _ rfl
      | isValue target value negated =>
          obtain ⟨t, -, heval⟩ := Outcome.bind_eq_ok.mp heval
          obtain ⟨w, -, heval⟩ := Outcome.bind_eq_ok.mp heval
          cases heval
          exact h.computed _ rfl
      | regexp target pattern negated =>
          obtain ⟨t, -, heval⟩ := Outcome.bind_eq_ok.mp heval
          obtain ⟨p, -, heval⟩ := Outcome.bind_eq_ok.mp heval
          split at heval
          · cases heval
            exact h.computed _ rfl
          · obtain ⟨matched, -, heval⟩ := Outcome.bind_eq_ok.mp heval
            cases heval
            exact h.computed _ rfl

end Eval.Closed

end DocStore
