import DocStore.Clause
import DocStore.Lock

/-!
# Requests and responses

The messages between a client and a server.  A request names a collection and what to do there.
-/

namespace DocStore

/-- The name of a collection and the schema it belongs to. -/
structure CollectionName where
  schema : String
  name : String
  deriving DecidableEq, Repr, Inhabited

def CollectionName.text (c : CollectionName) : String := c.schema ++ "." ++ c.name

/-- All that a statement says besides its collection. -/
structure Options where
  filter : Option Expr := none
  sort : List SortKey := []
  groupBy : List Expr := []
  having : Option Expr := none
  /-- At most so many results; at least one where a statement sets it. -/
  limit : Option UInt64 := none
  /-- So many results are left out first; a negative number leaves out none. -/
  offset : Option Int64 := none
  columns : List Column := []
  lockMode : LockMode := .none
  lockContention : LockContention := .default
  deriving Inhabited

/-- One change to a document. -/
inductive Operation where
  /-- Write a value at a path, making the place if it is missing. -/
  | set (path : Path) (value : Expr)
  /-- Write a value at a path if the place is there. -/
  | change (path : Path) (value : Expr)
  | unset (path : Path)
  /-- Merge an object into the document; null takes a member away. -/
  | mergePatch (patch : Value)
  | arrayInsert (path : Path) (value : Expr)
  | arrayAppend (path : Path) (value : Expr)
  deriving Inhabited

inductive Request where
  | hello (clientName : String)
  | createCollection (target : CollectionName) (reuseExisting : Bool)
  | dropCollection (target : CollectionName)
  | listCollections (schema : String)
  | find (target : CollectionName) (options : Options) (lock : Option LockDirective)
  /-- With `upsert`, a document whose identifier is taken replaces the one that has it. -/
  | insert (target : CollectionName) (documents : List Value) (upsert : Bool)
  | update (target : CollectionName) (options : Options) (operations : List Operation)
  | delete (target : CollectionName) (options : Options)
  | count (target : CollectionName)
  | begin
  | commit
  | rollback
  deriving Inhabited

inductive Response where
  | welcome (serverVersion : String)
  | ok
  | documents (documents : List Value)
  | affected (items : UInt64)
  | count (count : UInt64)
  | collectionList (names : List String)
  deriving Inhabited

namespace Options

/-- Replace the nodes of every expression. -/
def mapExprs (f : Expr → Expr) (o : Options) : Options :=
  { o with
    filter := o.filter.map (Expr.map f)
    sort := o.sort.map fun key => { key with expr := key.expr.map f }
    groupBy := o.groupBy.map (Expr.map f)
    having := o.having.map (Expr.map f)
    columns := o.columns.map fun column => { column with source := column.source.map f } }

end Options

namespace Operation

/-- Replace the nodes of the expression an operation writes. -/
def mapValue (f : Expr → Expr) : Operation → Operation
  | .set path value => .set path (value.map f)
  | .change path value => .change path (value.map f)
  | .arrayInsert path value => .arrayInsert path (value.map f)
  | .arrayAppend path value => .arrayAppend path (value.map f)
  | .unset path => .unset path
  | .mergePatch patch => .mergePatch patch

end Operation

namespace Request

/-- The name of a request's kind on the wire. -/
def name : Request → String
  | .hello _ => "hello"
  | .createCollection .. => "create_collection"
  | .dropCollection _ => "drop_collection"
  | .listCollections _ => "list_collections"
  | .find .. => "find"
  | .insert .. => "insert"
  | .update .. => "update"
  | .delete .. => "delete"
  | .count _ => "count"
  | .begin => "tx_begin"
  | .commit => "tx_commit"
  | .rollback => "tx_rollback"

end Request

namespace Response

/-- The name of a response's kind on the wire. -/
def name : Response → String
  | .welcome _ => "welcome"
  | .ok => "ok"
  | .documents _ => "documents"
  | .affected _ => "affected"
  | .count _ => "count"
  | .collectionList _ => "collection_list"

/-- The error about a response that does not answer its request. -/
def unexpected (request : String) (response : Response) : DocError :=
  .network s!"Unexpected '{response.name}' response to '{request}'"

end Response

end DocStore
