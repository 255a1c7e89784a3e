import DocStore.Proofs.Assoc
import DocStore.Proofs.Eval.Environment
import DocStore.Proofs.Text.Case

/-!
# What binding does

Main statement: `binding_fills_in`.  Binding reaches the expressions of options and operations in
every place where one can stand, at any depth, and changes nothing there but the placeholders that
have a value: these become literals, so that what is evaluated later is what would be evaluated with
the values at hand.  To bind twice is to bind once by both, the first having the last word.
-/

namespace DocStore

/-! ## The places of expressions -/

/-- The expressions of options, by the clause they stand in. -/
def Options.clauses (o : Options) : List (List Expr) :=
  [o.filter.toList, o.sort.map SortKey.expr, o.groupBy, o.having.toList, o.columns.map Column.source]

/-- What options say besides their expressions. -/
def Options.settings (o : Options) :=
  (o.sort.map SortKey.direction, o.columns.map Column.shownAs, o.limit, o.offset, o.lockMode,
    o.lockContention)

namespace Operation

/-- The expression that an operation writes. -/
def value? : Operation → Option Expr
  | .set _ value | .change _ value | .arrayInsert _ value | .arrayAppend _ value => some value
  | .unset _ | .mergePatch _ => none

/-- The operation with `*` in the place of what it writes. -/
def frame : Operation → Operation
  | .set path _ => .set path .star
  | .change path _ => .change path .star
  | .unset path => .unset path
  | .mergePatch patch => .mergePatch patch
  | .arrayInsert path _ => .arrayInsert path .star
  | .arrayAppend path _ => .arrayAppend path .star

/-- The expressions of operations, by the operation they stand in. -/
def clauses (operations : List Operation) : List (List Expr) :=
  operations.map fun operation => operation.value?.toList

end Operation

/-- One of the expressions lists a placeholder of this name. -/
def MentionedIn (clauses : List (List Expr)) (name : String) : Prop :=
  ∃ clause ∈ clauses, ∃ e ∈ clause, name ∈ e.placeholderNames

namespace Bindings

/-- No key has two values, as is the case for all bindings that are made by setting names. -/
def Distinct (b : Bindings) : Prop := (Assoc.keys b.values).Nodup

/-- The name is in lower case and has no colon in front. -/
structure IsPlainName (name : String) : Prop where
  lower : Text.lower name = name
  bare : name.toList.head? ≠ some ':'

/-- The second expression is the first with literals for its bound placeholders, and no other node
of it differs.  It has the value that the first has where these placeholders have theirs. -/
structure Binds (b : Bindings) (e bound : Expr) : Prop where
  nodes : bound.nodes.map Expr.label = e.nodes.map fun node => (Expr.fill b.get? node).label
  eval : ∀ scope, bound.eval scope = e.evalWith b.get? scope

variable {b b₁ b₂ : Bindings} {e : Expr} {name : String} {clauses : List (List Expr)}

/-! ## Names -/

theorem IsPlainName.normalize (h : IsPlainName name) : normalize name = name := by
  have hdrop : name.toList.dropWhile (· == ':') = name.toList := by
    cases hname : name.toList with
    | nil => rfl
    | cons c rest =>
        apply List.dropWhile_cons_of_neg
        intro hc
        apply h.bare
        rw [hname, eq_of_beq hc]
        rfl
  rw [Bindings.normalize, hdrop, String.ofList_toList, h.lower]

theorem get?_of_isPlainName (h : IsPlainName name) : b.get? name = Assoc.get? b.values name := by
  rw [get?, h.normalize]

theorem distinct_empty : Distinct {} := List.nodup_nil

theorem Distinct.set (h : b.Distinct) (name : String) (value : Value) : (b.set name value).Distinct :=
  Assoc.nodup_keys_insert _ _ h

theorem Distinct.extend (h : b.Distinct) (more : Bindings) : (b.extend more).Distinct :=
  Assoc.nodup_keys_insertAll _ h

/-- In extended bindings the new values come before the old ones. -/
theorem get?_extend (h : b₁.Distinct) (name : String) :
    (b₂.extend b₁).get? name = (b₁.get? name).or (b₂.get? name) := by
  rw [get?, extend, Assoc.get?_insertAll, Assoc.get?_reverse h]
  rfl

/-! ## Expressions -/

theorem substitute_eq_fill (b : Bindings) : b.substitute = Expr.fill (Assoc.get? b.values) := by
  funext e
  cases e <;> rfl

theorem applyExpr_eq (h : ∀ name ∈ e.placeholderNames, IsPlainName name) :
    b.applyExpr e = e.map (Expr.fill b.get?) := by
  rw [applyExpr, substitute_eq_fill]
  apply Expr.map_fill_congr
  intro name hname
  rw [get?_of_isPlainName (h name (Expr.mem_placeholderNames.mpr hname))]

theorem binds_applyExpr (h : ∀ name ∈ e.placeholderNames, IsPlainName name) :
    b.Binds e (b.applyExpr e) := by
  rw [applyExpr_eq h]
  exact ⟨Expr.labels_map_fill b.get? e, Expr.eval_map_fill b.get? e⟩

theorem mem_placeholderNames_applyExpr (h : ∀ name ∈ e.placeholderNames, IsPlainName name) :
    name ∈ (b.applyExpr e).placeholderNames ↔ name ∈ e.placeholderNames ∧ b.get? name = none := by
  rw [applyExpr_eq h, Expr.mem_placeholderNames, Expr.mem_placeholderNames, Expr.mentions_map_fill]

/-- The second binding reaches what the first has left. -/
theorem applyExpr_applyExpr (h : b₁.Distinct) (e : Expr) :
    b₂.applyExpr (b₁.applyExpr e) = (b₂.extend b₁).applyExpr e := by
  have hvalues : Assoc.get? (b₂.extend b₁).values
      = fun name => (Assoc.get? b₁.values name).or (Assoc.get? b₂.values name) := by
    funext name
    rw [extend, Assoc.get?_insertAll, Assoc.get?_reverse h]
  rw [applyExpr, applyExpr, applyExpr, substitute_eq_fill, substitute_eq_fill, substitute_eq_fill,
    Expr.map_fill_map_fill, hvalues]

/-! ## Options and operations -/

theorem clauses_applyOptions (b : Bindings) (o : Options) :
    (b.applyOptions o).clauses = o.clauses.map (List.map b.applyExpr) := by
  have hsort : ∀ keys : List SortKey,
      (keys.map fun key => { key with expr := key.expr.map b.substitute }).map SortKey.expr
        = (keys.map SortKey.expr).map b.applyExpr := by
    intro keys
    rw [List.map_map, List.map_map]
    rfl
  have hcolumns : ∀ columns : List Column,
      (columns.map fun column => { column with source := column.source.map b.substitute }).map
          Column.source
        = (columns.map Column.source).map b.applyExpr := by
    intro columns
    rw [List.map_map, List.map_map]
    rfl
  simp only [Options.clauses, applyOptions, Options.mapExprs, List.map_cons, List.map_nil,
    Option.toList_map, hsort, hcolumns]
  rfl

/-- Binding options keeps all that they say besides their expressions. -/
theorem settings_applyOptions (b : Bindings) (o : Options) :
    (b.applyOptions o).settings = o.settings := by
  simp [Options.settings, applyOptions, Options.mapExprs]

theorem applyOptions_applyOptions (h : b₁.Distinct) (o : Options) :
    b₂.applyOptions (b₁.applyOptions o) = (b₂.extend b₁).applyOptions o := by
  have hmap : ∀ e : Expr, (e.map b₁.substitute).map b₂.substitute
      = e.map (b₂.extend b₁).substitute := applyExpr_applyExpr h
  simp [applyOptions, Options.mapExprs, Function.comp_def, hmap]

theorem clauses_applyOperations (b : Bindings) (operations : List Operation) :
    Operation.clauses (b.applyOperations operations)
      = (Operation.clauses operations).map (List.map b.applyExpr) := by
  rw [Operation.clauses, Operation.clauses, applyOperations, List.map_map, List.map_map]
  apply List.map_congr_left
  intro operation _
  cases operation <;> rfl

/-- Binding operations keeps all that they say besides the expressions that they write. -/
theorem frames_applyOperations (b : Bindings) (operations : List Operation) :
    (b.applyOperations operations).map Operation.frame = operations.map Operation.frame := by
  rw [applyOperations, List.map_map]
  apply List.map_congr_left
  intro operation _
  cases operation <;> rfl

theorem applyOperations_applyOperations (h : b₁.Distinct) (operations : List Operation) :
    b₂.applyOperations (b₁.applyOperations operations)
      = (b₂.extend b₁).applyOperations operations := by
  have hmap : ∀ e : Expr, (e.map b₁.substitute).map b₂.substitute
      = e.map (b₂.extend b₁).substitute := applyExpr_applyExpr h
  rw [applyOperations, applyOperations, List.map_map]
  apply List.map_congr_left
  intro operation _
  cases operation <;> simp [Operation.mapValue, hmap]

/-! ## Lists of clauses -/

theorem forall₂_binds (h : ∀ name, MentionedIn clauses name → IsPlainName name) :
    List.Forall₂ (List.Forall₂ b.Binds) clauses (clauses.map (List.map b.applyExpr)) := by
  rw [List.forall₂_map_right_iff, List.forall₂_same]
  intro clause hclause
  rw [List.forall₂_map_right_iff, List.forall₂_same]
  intro e he
  apply binds_applyExpr
  intro name hname
  exact h name ⟨clause, hclause, e, he, hname⟩

theorem mentionedIn_bound (h : ∀ name, MentionedIn clauses name → IsPlainName name) :
    MentionedIn (clauses.map (List.map b.applyExpr)) name
      ↔ MentionedIn clauses name ∧ b.get? name = none := by
  have hplain : ∀ clause ∈ clauses, ∀ e ∈ clause, ∀ name ∈ e.placeholderNames, IsPlainName name :=
    fun clause hclause e he name hname => h name ⟨clause, hclause, e, he, hname⟩
  constructor
  · rintro ⟨_, hmapped, _, hbound, hname⟩
    obtain ⟨clause, hclause, rfl⟩ := List.mem_map.mp hmapped
    obtain ⟨e, he, rfl⟩ := List.mem_map.mp hbound
    obtain ⟨hname, hfree⟩ := (mem_placeholderNames_applyExpr (hplain clause hclause e he)).mp hname
    exact ⟨⟨clause, hclause, e, he, hname⟩, hfree⟩
  · rintro ⟨⟨clause, hclause, e, he, hname⟩, hfree⟩
    refine ⟨_, List.mem_map_of_mem hclause, _, List.mem_map_of_mem he, ?_⟩
    exact (mem_placeholderNames_applyExpr (hplain clause hclause e he)).mpr ⟨hname, hfree⟩

/-! ## Main results -/

/-- Of all placeholders of options and operations exactly those without a value are left.  Every
expression is bound in its place, and nothing else changes.  Binding twice is binding once by both,
the first values before the second. -/
theorem binding_fills_in (o : Options) (operations : List Operation) (b b₁ b₂ : Bindings)
    (hoptions : ∀ name, MentionedIn o.clauses name → IsPlainName name)
    (hoperations : ∀ name, MentionedIn (Operation.clauses operations) name → IsPlainName name)
    (hdistinct : b₁.Distinct) :
    (∀ name, (MentionedIn (b.applyOptions o).clauses name
        ↔ MentionedIn o.clauses name ∧ b.get? name = none)
      ∧ (MentionedIn (Operation.clauses (b.applyOperations operations)) name
        ↔ MentionedIn (Operation.clauses operations) name ∧ b.get? name = none))
    ∧ (List.Forall₂ (List.Forall₂ b.Binds) o.clauses (b.applyOptions o).clauses
      ∧ (b.applyOptions o).settings = o.settings)
    ∧ (List.Forall₂ (List.Forall₂ b.Binds) (Operation.clauses operations)
        (Operation.clauses (b.applyOperations operations))
      ∧ (b.applyOperations operations).map Operation.frame = operations.map Operation.frame)
    ∧ (b₂.applyOptions (b₁.applyOptions o) = (b₂.extend b₁).applyOptions o
      ∧ b₂.applyOperations (b₁.applyOperations operations)
        = (b₂.extend b₁).applyOperations operations
      ∧ ∀ name, (b₂.extend b₁).get? name = (b₁.get? name).or (b₂.get? name)) := by
  rw [clauses_applyOptions, clauses_applyOperations]
  refine ⟨fun name => ⟨mentionedIn_bound hoptions, mentionedIn_bound hoperations⟩,
    ⟨forall₂_binds hoptions, settings_applyOptions b o⟩,
    ⟨forall₂_binds hoperations, frames_applyOperations b operations⟩, ?_⟩
  exact ⟨applyOptions_applyOptions hdistinct o, applyOperations_applyOperations hdistinct operations,
    get?_extend hdistinct⟩

/-- A filter and an assignment with placeholders of one name. -/
theorem binding_fills_in_filter_and_assignment :
    let size : Expr := .placeholder "size" 0
    let o : Options := { filter := some (.binary .lt (.field (.ofMember "x")) size) }
    let operations : List Operation := [.set (.ofMember "y") size]
    let b : Bindings := ({} : Bindings).set "size" (.int 5)
    (MentionedIn o.clauses "size" ∧ ¬MentionedIn (b.applyOptions o).clauses "size")
      ∧ b.applyOperations (b.applyOperations operations) = b.applyOperations operations := by
  intro size o operations b
  have hname : IsPlainName "size" := ⟨Text.lower_eq_self (by simp), by decide⟩
  have hvalue : b.get? "size" = some (.int 5) := by
    rw [get?_of_isPlainName hname]
    simp only [b, set, hname.normalize]
    rfl
  have hnames : ∀ clauses, clauses = o.clauses ∨ clauses = Operation.clauses operations →
      ∀ name, MentionedIn clauses name → IsPlainName name := by
    have hfilter : (Expr.binary .lt (.field (.ofMember "x")) size).placeholderNames = ["size"] := rfl
    have hsize : size.placeholderNames = ["size"] := rfl
    rintro _ (rfl | rfl) name hmentioned
    all_goals
      obtain rfl : name = "size" := by
        simpa [MentionedIn, Options.clauses, Operation.clauses, Operation.value?, o, operations,
          hfilter, hsize] using hmentioned
      exact hname
  obtain ⟨hleft, -, -, htwice⟩ := binding_fills_in o operations b b b (hnames _ (.inl rfl))
    (hnames _ (.inr rfl)) (distinct_empty.set _ _)
  have hb : b.extend b = b := by
    simp only [b, set, hname.normalize]
    rfl
  rw [hb] at htwice
  refine ⟨⟨⟨_, .head _, _, .head _, by decide⟩, ?_⟩, htwice.2.1⟩
  intro hmentioned
  have hnone := ((hleft "size").1.mp hmentioned).2
  rw [hvalue] at hnone
  cases hnone

end Bindings

end DocStore
