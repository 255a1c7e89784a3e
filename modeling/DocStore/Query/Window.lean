import DocStore.Eval
import DocStore.Request

/-!
# Order and window of results

Results are sorted by the keys of a sort list, the first key that differs deciding, and results with
equal keys keep their order.  The window leaves out the results before the offset and those beyond
the limit.
-/

namespace DocStore.Query

/-- The order of two lists of keys under the directions of a sort list. -/
def compareKeys : List SortDirection → List Value → List Value → Ordering
  | direction :: directions, a :: as, b :: bs =>
    let order := match direction with
      | .asc => a.sortCompare b
      | .desc => b.sortCompare a
    order.then (compareKeys directions as bs)
  | _, _, _ => .eq

/-- The values of a sort list in a scope. -/
def keysIn (sort : List SortKey) (scope : Scope) : Except DocError (List Value) :=
  sort.mapM fun key => key.expr.eval scope

/-- The items in the order of a sort list, which is evaluated in each item's scope. -/
def sortBy {α : Type} (sort : List SortKey) (scope : α → Scope) (items : List α) :
    Except DocError (List α) :=
  if sort.isEmpty then .ok items
  else do
    let keyed ← items.mapM fun item => do return (← keysIn sort (scope item), item)
    let directions := sort.map SortKey.direction
    let sorted := keyed.mergeSort fun a b => (compareKeys directions a.1 b.1).isLE
    return sorted.map Prod.snd

/-- The rows that a window shows.  A negative offset counts as zero. -/
def window {α : Type} (limit : Option UInt64) (offset : Option Int64) (items : List α) : List α :=
  let shown := items.drop ((offset.getD 0).toInt).toNat
  match limit with
  | some n => shown.take n.toNat
  | none => shown

end DocStore.Query
