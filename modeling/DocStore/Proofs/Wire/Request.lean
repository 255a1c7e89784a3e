import DocStore.Wire.Request
import DocStore.Proofs.Wire.Expr

/-!
# Reading back messages

Clauses, operations, requests and responses are read back as they were written, if the values in
them are plain.  A writer leaves nothing out, so the defaults of a reader are never used here.
-/

namespace DocStore

open Wire

/-! ## Messages of plain values -/

/-- The expressions of a statement, clause by clause. -/
def Options.exprs (o : Options) : List Expr :=
  o.filter.toList ++ o.sort.map SortKey.expr ++ o.groupBy ++ o.having.toList
    ++ o.columns.map Column.source

def Options.isPlain (o : Options) : Bool := o.exprs.all Expr.isPlain

def Operation.isPlain : Operation → Bool
  | .set _ value | .change _ value | .arrayInsert _ value | .arrayAppend _ value => value.isPlain
  | .mergePatch patch => patch.isPlain
  | .unset _ => true

def Request.isPlain : Request → Bool
  | .find _ options _ | .delete _ options => options.isPlain
  | .insert _ documents _ => documents.all Value.isPlain
  | .update _ options operations => options.isPlain && operations.all Operation.isPlain
  | _ => true

def Response.isPlain : Response → Bool
  | .documents found => found.all Value.isPlain
  | _ => true

/-! ## Names -/

namespace Wire

theorem withDefault?_some {α : Type} (fallback : α) (read : Json → Option α) (json : Json) :
    withDefault? fallback read (some json) = read json := rfl

theorem named?_str {α : Type} {ofName? : String → Option α} {name : String} :
    named? ofName? (.str name) = ofName? name := rfl

end Wire

theorem SortDirection.ofName?_name (d : SortDirection) :
    SortDirection.ofName? d.name = some d := by
  cases d <;> decide

theorem LockMode.ofName?_name (mode : LockMode) : LockMode.ofName? mode.name = some mode := by
  cases mode <;> decide

theorem LockContention.ofName?_name (rule : LockContention) :
    LockContention.ofName? rule.name = some rule := by
  cases rule <;> decide

theorem RowLock.ofName?_name (lock : RowLock) : RowLock.ofName? lock.name = some lock := by
  cases lock <;> decide

theorem LockOption.ofName?_name (option : LockOption) :
    LockOption.ofName? option.name = some option := by
  cases option <;> decide

theorem CollectionName.ofJson?_toJson (c : CollectionName) :
    CollectionName.ofJson? c.toJson = some c := by
  simp [CollectionName.ofJson?, CollectionName.toJson, Assoc.get?]

theorem LockDirective.ofJson?_toJson (d : LockDirective) :
    LockDirective.ofJson? d.toJson = some d := by
  have hoption : optional? (named? LockOption.ofName?)
      (ofOption (fun o : LockOption => .str o.name) d.option) = some d.option :=
    optional?_ofOption nofun fun option _ => option.ofName?_name
  simp [LockDirective.ofJson?, LockDirective.toJson, Assoc.get?, named?_str,
    RowLock.ofName?_name, hoption]

theorem LockDirective.toJson_ne_null (d : LockDirective) : d.toJson ≠ .null := by
  simp [LockDirective.toJson]

/-! ## Clauses -/

theorem SortKey.ofJson?_toJson {key : SortKey} (h : key.expr.isPlain = true) :
    SortKey.ofJson? key.toJson = some key := by
  simp [SortKey.ofJson?, SortKey.toJson, Assoc.get?, Expr.ofJson?_toJson h, named?_str,
    SortDirection.ofName?_name]

theorem Column.ofJson?_toJson {column : Column} (h : column.source.isPlain = true) :
    Column.ofJson? column.toJson = some column := by
  have halias : optional? text? (ofOption .str column.shownAs) = some column.shownAs :=
    optional?_ofOption nofun fun _ _ => rfl
  simp [Column.ofJson?, Column.toJson, Assoc.get?, Expr.ofJson?_toJson h, halias]

theorem Options.isPlain_iff (o : Options) :
    o.isPlain = true ↔ (∀ e ∈ o.filter, e.isPlain = true)
      ∧ (∀ key ∈ o.sort, key.expr.isPlain = true) ∧ (∀ e ∈ o.groupBy, e.isPlain = true)
      ∧ (∀ e ∈ o.having, e.isPlain = true)
      ∧ ∀ column ∈ o.columns, column.source.isPlain = true := by
  simp only [isPlain, exprs, List.all_append, Bool.and_eq_true, List.all_eq_true, List.forall_mem_map,
    Option.mem_toList, Option.mem_def, and_assoc]

theorem Options.ofJson?_toJson {o : Options} (h : o.isPlain = true) :
    Options.ofJson? o.toJson = some o := by
  obtain ⟨filter, sort, groupBy, having, columns⟩ := o.isPlain_iff.mp h
  have hfilter : optional? Expr.ofJson? (ofOption Expr.toJson o.filter) = some o.filter :=
    optional?_ofOption Expr.toJson_ne_null fun e he => Expr.ofJson?_toJson (filter e he)
  have hsort : list? SortKey.ofJson? (.arr (o.sort.map SortKey.toJson)) = some o.sort :=
    list?_map fun key hkey => SortKey.ofJson?_toJson (sort key hkey)
  have hgroupBy : list? Expr.ofJson? (.arr (o.groupBy.map Expr.toJson)) = some o.groupBy :=
    list?_map fun e he => Expr.ofJson?_toJson (groupBy e he)
  have hhaving : optional? Expr.ofJson? (ofOption Expr.toJson o.having) = some o.having :=
    optional?_ofOption Expr.toJson_ne_null fun e he => Expr.ofJson?_toJson (having e he)
  have hcolumns : list? Column.ofJson? (.arr (o.columns.map Column.toJson)) = some o.columns :=
    list?_map fun column hcolumn => Column.ofJson?_toJson (columns column hcolumn)
  have hlimit : optional? uint64? (ofOption (fun n : UInt64 => .int n.toNat) o.limit)
      = some o.limit := optional?_ofOption nofun fun n _ => uint64?_toNat n
  have hoffset : optional? int64? (ofOption (fun n : Int64 => .int n.toInt) o.offset)
      = some o.offset := optional?_ofOption nofun fun n _ => int64?_toInt n
  simp [Options.ofJson?, Options.toJson, Assoc.get?, withDefault?_some, named?_str, hfilter, hsort,
    hgroupBy, hhaving, hlimit, hoffset, hcolumns, LockMode.ofName?_name,
    LockContention.ofName?_name]

/-! ## Operations -/

theorem Operation.ofJson?_toJson {op : Operation} (h : op.isPlain = true) :
    Operation.ofJson? op.toJson = some op := by
  cases op with
  | set path value | change path value | arrayInsert path value | arrayAppend path value =>
      simp [Operation.ofJson?, Operation.toJson, Operation.writing, Assoc.get?,
        path.ofJson?_toJson, Expr.ofJson?_toJson h]
  | unset path => simp [Operation.ofJson?, Operation.toJson, Assoc.get?, path.ofJson?_toJson]
  | mergePatch patch =>
      simp [Operation.ofJson?, Operation.toJson, Assoc.get?, Value.ofJson_toJson h]

/-! ## Requests and responses -/

theorem Value.list?_ofJson_toJson {values : List Value} (h : values.all Value.isPlain = true) :
    list? (fun json => some (Value.ofJson json)) (.arr (values.map Value.toJson)) = some values :=
  list?_map fun v hv => congrArg some (Value.ofJson_toJson (List.all_eq_true.mp h v hv))

theorem Request.ofJson?_toJson {request : Request} (h : request.isPlain = true) :
    Request.ofJson? request.toJson = some request := by
  cases request with
  | hello _ | createCollection _ _ | dropCollection _ | listCollections _ | count _ =>
      simp [Request.ofJson?, Request.toJson, Request.name, Request.fields, Assoc.get?,
        withDefault?_some, CollectionName.ofJson?_toJson]
  | begin | commit | rollback =>
      simp [Request.ofJson?, Request.toJson, Request.name, Request.fields]
  | find target options lock =>
      have hlock : optional? LockDirective.ofJson? (ofOption LockDirective.toJson lock)
          = some lock :=
        optional?_ofOption LockDirective.toJson_ne_null fun d _ => d.ofJson?_toJson
      simp [Request.ofJson?, Request.toJson, Request.name, Request.fields, Assoc.get?,
        CollectionName.ofJson?_toJson, Options.ofJson?_toJson h, hlock]
  | insert target documents upsert =>
      simp [Request.ofJson?, Request.toJson, Request.name, Request.fields, Assoc.get?,
        withDefault?_some, CollectionName.ofJson?_toJson, Value.list?_ofJson_toJson h]
  | update target options operations =>
      obtain ⟨hoptions, hops⟩ := Bool.and_eq_true_iff.mp h
      have hlist : list? Operation.ofJson? (.arr (operations.map Operation.toJson))
          = some operations :=
        list?_map fun op hop => Operation.ofJson?_toJson (List.all_eq_true.mp hops op hop)
      simp [Request.ofJson?, Request.toJson, Request.name, Request.fields, Assoc.get?,
        CollectionName.ofJson?_toJson, Options.ofJson?_toJson hoptions, hlist]
  | delete target options =>
      simp [Request.ofJson?, Request.toJson, Request.name, Request.fields, Assoc.get?,
        CollectionName.ofJson?_toJson, Options.ofJson?_toJson h]

theorem Response.ofJson?_toJson {response : Response} (h : response.isPlain = true) :
    Response.ofJson? response.toJson = some response := by
  cases response with
  | welcome _ | affected _ | count _ =>
      simp [Response.ofJson?, Response.toJson, Response.name, Response.fields, Assoc.get?]
  | ok => simp [Response.ofJson?, Response.toJson, Response.name, Response.fields]
  | documents found =>
      simp [Response.ofJson?, Response.toJson, Response.name, Response.fields, Assoc.get?,
        Value.list?_ofJson_toJson h]
  | collectionList names =>
      have hnames : list? text? (.arr (names.map Json.str)) = some names :=
        list?_map fun _ _ => rfl
      simp [Response.ofJson?, Response.toJson, Response.name, Response.fields, Assoc.get?, hnames]

/-- Reading undoes writing, for everything that goes over the wire. -/
theorem Wire.messages_read_back :
    (∀ v : Value, v.isPlain = true → Value.ofJson v.toJson = v)
      ∧ (∀ path : Path, Path.ofJson? path.toJson = some path)
      ∧ (∀ e : Expr, e.isPlain = true → Expr.ofJson? e.toJson = some e)
      ∧ (∀ o : Options, o.isPlain = true → Options.ofJson? o.toJson = some o)
      ∧ (∀ op : Operation, op.isPlain = true → Operation.ofJson? op.toJson = some op)
      ∧ (∀ request : Request, request.isPlain = true →
          Request.ofJson? request.toJson = some request)
      ∧ (∀ response : Response, response.isPlain = true →
          Response.ofJson? response.toJson = some response) :=
  ⟨fun _ => Value.ofJson_toJson, Path.ofJson?_toJson, fun _ => Expr.ofJson?_toJson,
    fun _ => Options.ofJson?_toJson, fun _ => Operation.ofJson?_toJson,
    fun _ => Request.ofJson?_toJson, fun _ => Response.ofJson?_toJson⟩

/-! ### An update and its answer -/

namespace Wire

/-- A patch that takes a member away and writes the least `uint`, its members in no special order. -/
def samplePatch : Value :=
  .obj [("stock", .uint 9223372036854775808), ("draft", .null),
    ("price", .arr [.float 12.5, .int (-3), .obj []])]

/-- `title LIKE :t ESCAPE "#"`, the latest edition first. -/
def sampleOptions : Options where
  filter := some (.like (.field ⟨[.member "title"]⟩) (.placeholder "t" 0)
    (some (.literal (.str "#"))) false)
  sort := [⟨.field ⟨[.member "edition"]⟩, .desc⟩]
  limit := some 1
  lockMode := .exclusive

def sampleUpdate : Request :=
  .update ⟨"test", "books"⟩ sampleOptions
    [.mergePatch samplePatch, .arrayAppend ⟨[.member "tags", .index 0]⟩ (.literal (.float (-0.0)))]

theorem messages_read_back_sampleUpdate :
    (samplePatch.isPlain = true ∧ Value.ofJson samplePatch.toJson = samplePatch)
      ∧ (sampleOptions.isPlain = true
        ∧ Options.ofJson? sampleOptions.toJson = some sampleOptions)
      ∧ (sampleUpdate.isPlain = true ∧ Request.ofJson? sampleUpdate.toJson = some sampleUpdate)
      ∧ ((Response.documents [samplePatch]).isPlain = true
        ∧ Response.ofJson? (Response.documents [samplePatch]).toJson
          = some (.documents [samplePatch])) := by
  obtain ⟨value, -, -, options, -, request, response⟩ := messages_read_back
  have hpatch : samplePatch.isPlain = true := by decide
  have hoptions : sampleOptions.isPlain = true := by decide
  have hupdate : sampleUpdate.isPlain = true := by decide
  have hanswer : (Response.documents [samplePatch]).isPlain = true := by decide
  exact ⟨⟨hpatch, value _ hpatch⟩, ⟨hoptions, options _ hoptions⟩, ⟨hupdate, request _ hupdate⟩,
    ⟨hanswer, response _ hanswer⟩⟩

end Wire

end DocStore
