import DocStore.Proofs.Eval.Closed
import DocStore.Proofs.Value.Overlap
import DocStore.Store.Read

/-!
# The operands of an overlap

Main statement: `Expr.overlaps_symmetric`.  The operands of `OVERLAPS` may change places: the value
stays the same in every scope, and a filter lets the same rows through.

An object is a table and has no name twice.  Evaluation keeps that (`Eval.closed_hasDistinctNames`),
so the operands' values can be compared from either side.
-/

namespace DocStore

theorem Eval.closed_hasDistinctNames : Eval.Closed fun v => v.hasDistinctNames = true where
  computed v h := by cases v <;> first | rfl | cases h
  uint _ _ := rfl
  arr _ := Value.hasDistinctNames_arr
  members _ h := (Value.hasDistinctNames_obj.mp h).2
  obj _ hnames hvalues := Value.hasDistinctNames_obj.mpr ⟨hnames, hvalues⟩

/-- Filters that answer alike on each row let the same rows through. -/
theorem Store.filterRows_congr {rows : Rows} {filter other : Option Expr}
    (h : ∀ row ∈ rows, (Expr.passes filter (.obj row.2)).toOption
      = (Expr.passes other (.obj row.2)).toOption) :
    (filterRows filter rows).toOption = (filterRows other rows).toOption := by
  induction rows with
  | nil => rfl
  | cons row rest ih =>
      obtain ⟨hrow, hrest⟩ := List.forall_mem_cons.mp h
      simp only [filterRows, Outcome.toOption_bind, hrow, ih hrest]

namespace Expr

variable {a b : Expr}

theorem eval_overlaps_comm (ha : a.LiteralsHold fun v => v.hasDistinctNames = true)
    (hb : b.LiteralsHold fun v => v.hasDistinctNames = true) (negated : Bool) {scope : Scope}
    (hscope : scope.Holds fun v => v.hasDistinctNames = true) :
    ((overlaps a b negated).eval scope).toOption
      = ((overlaps b a negated).eval scope).toOption := by
  rw [eval, eval]
  cases hl : a.eval scope with
  | error e => cases b.eval scope <;> rfl
  | ok l =>
      cases hr : b.eval scope with
      | error e => rfl
      | ok r =>
          have hl := Eval.closed_hasDistinctNames.eval ha hscope hl
          have hr := Eval.closed_hasDistinctNames.eval hb hscope hr
          show (if l.isNull || r.isNull then _ else _ : Except DocError Value).toOption
            = (if r.isNull || l.isNull then _ else _ : Except DocError Value).toOption
          rw [Value.overlaps_comm hl hr, Bool.or_comm]

/-- Operands of `OVERLAPS` that change places either fail both times or give the same value, and a
filter then lets the same rows of any collection through. -/
theorem overlaps_symmetric (ha : a.LiteralsHold fun v => v.hasDistinctNames = true)
    (hb : b.LiteralsHold fun v => v.hasDistinctNames = true) (negated : Bool) :
    (∀ scope : Scope, scope.Holds (fun v => v.hasDistinctNames = true) →
      ((overlaps a b negated).eval scope).toOption = ((overlaps b a negated).eval scope).toOption)
      ∧ ∀ rows : Rows, (∀ row ∈ rows, (Value.obj row.2).hasDistinctNames = true) →
        (Store.filterRows (some (.overlaps a b negated)) rows).toOption
          = (Store.filterRows (some (.overlaps b a negated)) rows).toOption := by
  refine ⟨fun scope hscope => eval_overlaps_comm ha hb negated hscope, fun rows hrows => ?_⟩
  refine Store.filterRows_congr fun row hrow => ?_
  have hscope : (Scope.row (.obj row.2)).Holds fun v => v.hasDistinctNames = true := hrows row hrow
  have heval := eval_overlaps_comm ha hb negated hscope
  simp only [passes, Outcome.toOption_bind, heval]

/-- Of three rows the first has an object in common with the operand, up to the kind of a number. -/
theorem overlaps_symmetric_tags :
    let tags : Expr := .field (.ofMember "tags")
    let wanted : Expr := .array [.literal (.str "long"), .object [("n", .literal (.int 1))]]
    let classic : String × Document :=
      ("1", [("_id", .str "1"), ("tags", .arr [.str "classic", .obj [("n", .float 1.0)]])])
    let rows : Rows := [classic, ("2", [("_id", .str "2"), ("tags", .str "short")]),
      ("3", [("_id", .str "3")])]
    Store.filterRows (some (.overlaps tags wanted false)) rows = .ok [classic]
      ∧ (Store.filterRows (some (.overlaps wanted tags false)) rows).toOption = some [classic] := by
  intro tags wanted classic rows
  have htags : tags.LiteralsHold fun v => v.hasDistinctNames = true := by
    simp [tags, LiteralsHold, nodes]
  have hwanted : wanted.LiteralsHold fun v => v.hasDistinctNames = true := by
    simp [wanted, LiteralsHold, nodes, nodesOfList, nodesOfFields, Value.hasDistinctNames]
  have hrows : ∀ row ∈ rows, (Value.obj row.2).hasDistinctNames = true := by
    simp [rows, classic, Value.hasDistinctNames, Value.membersDistinctNames,
      Value.allDistinctNames, Assoc.keys]
  have hfound : Store.filterRows (some (.overlaps tags wanted false)) rows = .ok [classic] := by
    dsimp only [rows, classic, tags, wanted]
    rfl
  refine ⟨hfound, ?_⟩
  rw [← (overlaps_symmetric htags hwanted false).2 rows hrows, hfound]
  rfl

end Expr

end DocStore
