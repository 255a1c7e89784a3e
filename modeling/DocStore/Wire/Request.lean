import DocStore.Request
import DocStore.Wire.Expr

/-!
# Messages on the wire

Requests and responses as JSON trees: `toJson` writes one, `ofJson?` reads it back.  Lists and flags
of a request may be left out, and are empty or off then.
-/

namespace DocStore

open Wire

/-- Read a field that may be left out. -/
def Wire.withDefault? {α : Type} (fallback : α) (read : Json → Option α) : Option Json → Option α
  | none => some fallback
  | some json => read json

/-- Read a name from a fixed list of names. -/
def Wire.named? {α : Type} (ofName? : String → Option α) (json : Json) : Option α :=
  (text? json).bind ofName?

/-! ### Clauses -/

def SortKey.toJson (key : SortKey) : Json :=
  .obj [("expr", key.expr.toJson), ("direction", .str key.direction.name)]

def SortKey.ofJson? (json : Json) : Option SortKey := do
  let record ← Record.ofJson? json
  guard (record.fits 2)
  return ⟨← Expr.ofJson? (← record.field? 0 "expr"),
    ← named? SortDirection.ofName? (← record.field? 1 "direction")⟩

def Column.toJson (column : Column) : Json :=
  .obj [("source", column.source.toJson), ("alias", ofOption .str column.shownAs)]

def Column.ofJson? (json : Json) : Option Column := do
  let record ← Record.ofJson? json
  guard (record.fits 2)
  return ⟨← Expr.ofJson? (← record.field? 0 "source"),
    ← optional? text? (← record.nullable? 1 "alias")⟩

def Options.toJson (o : Options) : Json :=
  .obj [("filter", ofOption Expr.toJson o.filter), ("sort", .arr (o.sort.map SortKey.toJson)),
    ("group_by", .arr (o.groupBy.map Expr.toJson)), ("having", ofOption Expr.toJson o.having),
    ("limit", ofOption (fun n : UInt64 => .int n.toNat) o.limit),
    ("offset", ofOption (fun n : Int64 => .int n.toInt) o.offset),
    ("projection", .arr (o.columns.map Column.toJson)), ("lock_mode", .str o.lockMode.name),
    ("lock_contention", .str o.lockContention.name)]

def Options.ofJson? (json : Json) : Option Options := do
  let record ← Record.ofJson? json
  guard (record.fits 9)
  return {
    filter := ← optional? Expr.ofJson? (← record.nullable? 0 "filter")
    sort := ← withDefault? [] (list? SortKey.ofJson?) (record.field? 1 "sort")
    groupBy := ← withDefault? [] (list? Expr.ofJson?) (record.field? 2 "group_by")
    having := ← optional? Expr.ofJson? (← record.nullable? 3 "having")
    limit := ← optional? uint64? (← record.nullable? 4 "limit")
    offset := ← optional? int64? (← record.nullable? 5 "offset")
    columns := ← withDefault? [] (list? Column.ofJson?) (record.field? 6 "projection")
    lockMode := ← withDefault? .none (named? LockMode.ofName?) (record.field? 7 "lock_mode")
    lockContention :=
      ← withDefault? .default (named? LockContention.ofName?) (record.field? 8 "lock_contention") }

/-! ### Operations -/

/-- An operation that writes a value at a path. -/
def Operation.writing (shape : String) (path : Path) (value : Expr) : Json :=
  tagged "op" shape [("path", path.toJson), ("value", value.toJson)]

def Operation.toJson : Operation → Json
  | .set path value => writing "set" path value
  | .change path value => writing "change" path value
  | .unset path => tagged "op" "unset" [("path", path.toJson)]
  | .mergePatch patch => tagged "op" "merge_patch" [("patch", patch.toJson)]
  | .arrayInsert path value => writing "array_insert" path value
  | .arrayAppend path value => writing "array_append" path value

def Operation.ofJson? (json : Json) : Option Operation := do
  let (shape, record) ← Record.ofTagged? "op" json
  let writing? (make : Path → Expr → Operation) : Option Operation := do
    guard (record.fits 2)
    return make (← Path.ofJson? (← record.field? 0 "path"))
      (← Expr.ofJson? (← record.field? 1 "value"))
  match shape with
  | "set" => writing? .set
  | "change" => writing? .change
  | "unset" =>
    guard (record.fits 1)
    return .unset (← Path.ofJson? (← record.field? 0 "path"))
  | "merge_patch" =>
    guard (record.fits 1)
    return .mergePatch (Value.ofJson (← record.field? 0 "patch"))
  | "array_insert" => writing? .arrayInsert
  | "array_append" => writing? .arrayAppend
  | _ => none

/-! ### Locks and names -/

def LockDirective.toJson (d : LockDirective) : Json :=
  .obj [("row_lock", .str d.rowLock.name),
    ("options", ofOption (fun o : LockOption => .str o.name) d.option)]

def LockDirective.ofJson? (json : Json) : Option LockDirective := do
  let record ← Record.ofJson? json
  guard (record.fits 2)
  return ⟨← named? RowLock.ofName? (← record.field? 0 "row_lock"),
    ← optional? (named? LockOption.ofName?) (← record.nullable? 1 "options")⟩

def CollectionName.toJson (c : CollectionName) : Json :=
  .obj [("schema", .str c.schema), ("name", .str c.name)]

def CollectionName.ofJson? (json : Json) : Option CollectionName := do
  let record ← Record.ofJson? json
  guard (record.fits 2)
  return ⟨← text? (← record.field? 0 "schema"), ← text? (← record.field? 1 "name")⟩

/-! ### Requests -/

def Request.fields : Request → List (String × Json)
  | .hello clientName => [("client_name", .str clientName)]
  | .createCollection target reuseExisting =>
    [("target", target.toJson), ("reuse_existing", .bool reuseExisting)]
  | .dropCollection target => [("target", target.toJson)]
  | .listCollections schema => [("schema", .str schema)]
  | .find target options lock =>
    [("target", target.toJson), ("options", options.toJson),
      ("lock", ofOption LockDirective.toJson lock)]
  | .insert target documents upsert =>
    [("target", target.toJson), ("documents", .arr (documents.map Value.toJson)),
      ("upsert", .bool upsert)]
  | .update target options operations =>
    [("target", target.toJson), ("options", options.toJson),
      ("operations", .arr (operations.map Operation.toJson))]
  | .delete target options => [("target", target.toJson), ("options", options.toJson)]
  | .count target => [("target", target.toJson)]
  | .begin | .commit | .rollback => []

def Request.toJson (request : Request) : Json := tagged "type" request.name request.fields

def Request.ofJson? (json : Json) : Option Request := do
  let (shape, record) ← Record.ofTagged? "type" json
  let target? : Option CollectionName := do CollectionName.ofJson? (← record.field? 0 "target")
  let options? : Option Options := do Options.ofJson? (← record.field? 1 "options")
  match shape with
  | "hello" =>
    guard (record.fits 1)
    return .hello (← text? (← record.field? 0 "client_name"))
  | "create_collection" =>
    guard (record.fits 2)
    return .createCollection (← target?)
      (← withDefault? false flag? (record.field? 1 "reuse_existing"))
  | "drop_collection" =>
    guard (record.fits 1)
    return .dropCollection (← target?)
  | "list_collections" =>
    guard (record.fits 1)
    return .listCollections (← text? (← record.field? 0 "schema"))
  | "find" =>
    guard (record.fits 3)
    return .find (← target?) (← options?)
      (← optional? LockDirective.ofJson? (← record.nullable? 2 "lock"))
  | "insert" =>
    guard (record.fits 3)
    let documents ← list? (fun json => some (Value.ofJson json)) (← record.field? 1 "documents")
    return .insert (← target?) documents (← withDefault? false flag? (record.field? 2 "upsert"))
  | "update" =>
    guard (record.fits 3)
    return .update (← target?) (← options?)
      (← list? Operation.ofJson? (← record.field? 2 "operations"))
  | "delete" =>
    guard (record.fits 2)
    return .delete (← target?) (← options?)
  | "count" =>
    guard (record.fits 1)
    return .count (← target?)
  | "tx_begin" => return .begin
  | "tx_commit" => return .commit
  | "tx_rollback" => return .rollback
  | _ => none

/-! ### Responses -/

def Response.fields : Response → List (String × Json)
  | .welcome serverVersion => [("server_version", .str serverVersion)]
  | .ok => []
  | .documents found => [("documents", .arr (found.map Value.toJson))]
  | .affected items => [("affected_items", .int items.toNat)]
  | .count n => [("count", .int n.toNat)]
  | .collectionList names => [("names", .arr (names.map Json.str))]

def Response.toJson (response : Response) : Json := tagged "type" response.name response.fields

def Response.ofJson? (json : Json) : Option Response := do
  let (shape, record) ← Record.ofTagged? "type" json
  guard (record.fits 1)
  match shape with
  | "welcome" => return .welcome (← text? (← record.field? 0 "server_version"))
  | "ok" => return .ok
  | "documents" =>
    return .documents
      (← list? (fun json => some (Value.ofJson json)) (← record.field? 0 "documents"))
  | "affected" => return .affected (← uint64? (← record.field? 0 "affected_items"))
  | "count" => return .count (← uint64? (← record.field? 0 "count"))
  | "collection_list" => return .collectionList (← list? text? (← record.field? 0 "names"))
  | _ => none

end DocStore
