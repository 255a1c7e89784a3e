import DocStore.Proofs.Client.Identifiers
import DocStore.Proofs.Client.Lookup
import DocStore.Proofs.Store.Locking

/-!
# Storing, reading and removing under a text

Main statement: `stored_under_text`.  A document that is stored under a text is what is read by that
text from then on, until it is removed by it; all other rows stay as they are.

A text loosely equals no other identifier, so the only row that a lookup by it can find is the one
that stands under it (`filter_hasId_text`).
-/

namespace DocStore

/-! ## Storing one document -/

namespace Store

variable {store : Store} {session : SessionId} {target : CollectionName} {stored : Rows}
  {key : String} {doc : Document}

/-- A document that may replace the one under its key is one write. -/
theorem execute_upsert (hstored : store.rows? target = some stored)
    (hidentified : IdentifiedBy doc key) (hfree : store.Free session ⟨target, key⟩) :
    store.execute session (.insert target [.obj doc] true)
      = (.ok (affected (insertWeight (Assoc.get? stored key) doc)),
          store.write session ⟨⟨target, key⟩, some doc⟩) := by
  have hprepared : prepare true (Assoc.keys stored) [.obj doc] = .ok [(key, doc)] :=
    prepare_eq_ok_iff.mpr ⟨rfl, by simpa using hidentified, nofun⟩
  have hchecked : store.checkFree session target [key] = .ok () := by
    refine checkFree_eq_ok_iff.mpr fun id hid => ?_
    obtain rfl := List.mem_singleton.mp hid
    exact free_iff.mp hfree
  have hinserted : store.insertedRows session target [.obj doc] true = .ok [(key, doc)] := by
    rw [insertedRows, rows_eq_ok.mpr hstored]
    show (prepare true (Assoc.keys stored) [.obj doc] >>= fun _ => _) = _
    rw [hprepared]
    show (store.checkFree session target [key] >>= fun _ => _) = _
    rw [hchecked]
    rfl
  have hrow : store.row? ⟨target, key⟩ = Assoc.get? stored key := by
    rw [row?, hstored, Option.bind_some]
  rw [execute, insert_eq, hinserted, ← hrow]
  rfl

theorem ofNat_insertWeight (before : Option Document) (doc : Document) :
    UInt64.ofNat (insertWeight before doc)
      = match before with
        | none => 1
        | some old => if Value.obj old == Value.obj doc then 0 else 2 := by
  cases before with
  | none => rfl
  | some old =>
      dsimp only [insertWeight]
      cases Value.obj old == Value.obj doc <;> rfl

end Store

namespace Collection

variable {σ : Type} {connection : Connection σ} {c : Collection} {id : Value} {source : Source}
  {doc : Document}

/-! ## The request -/

/-- A document as it is stored under an identifier, which comes first. -/
def under (id : Value) (doc : Document) : Document := (idField, id) :: Assoc.erase doc idField

theorem identifiedBy_under (id : Value) (doc : Document) :
    IdentifiedBy (under id doc) id.bareText :=
  ⟨id, by simp [under, Assoc.get?], rfl⟩

/-- A document may come with the identifier that it is to be stored under. -/
theorem replacement_eq (hdoc : source.toDocument = .ok doc)
    (hown : ∀ own, Assoc.get? doc idField = some own → own.looselyEquals id = true) :
    replacement id source = .ok (Assoc.erase doc idField) := by
  cases h : Assoc.get? doc idField with
  | none =>
      rw [Assoc.erase_of_not_mem (Assoc.get?_eq_none_iff.mp h)]
      simp only [replacement, hdoc, bind, Except.bind, h]
      rfl
  | some own =>
      simp only [replacement, hdoc, bind, Except.bind, h, hown own h, if_true]
      rfl

theorem run_addOrReplaceOne {state : ClientState σ}
    (hversion : c.session.version.supports Version.upsert = true) (h : requireId id = .ok ())
    (hdoc : replacement id source = .ok doc) :
    (c.addOrReplaceOne id source).run connection state
      = ((connection.send (.insert c.target [.obj (under id doc)] true) state.server).1
          >>= Response.affectedBy "insert",
        { state with
          server := (connection.send (.insert c.target [.obj (under id doc)] true)
            state.server).2 }) := by
  let statement : AddStatement := ⟨c, [under id doc], [], true⟩
  have hadd : (AddStatement.ofCollection c).replacing.add
      (.members (Assoc.insertAt doc 0 idField id)) = .ok statement := rfl
  have hcontains : Assoc.contains (under id doc) idField = true := by
    simp [under, Assoc.contains, Assoc.get?]
  -- The document has an identifier already, so none is made for it.
  have hrequest : statement.toRequest state.clock state.ids
      = ((.insert c.target [.obj (under id doc)] true, statement), state.ids) := by
    simp only [AddStatement.toRequest, AddStatement.assignIds]
    rw [AddStatement.assign_kept hcontains]
    rfl
  rw [addOrReplaceOne, hversion]
  show (Client.ofExcept (requireId id) >>= fun _ => _ : Client σ UInt64).run connection state = _
  rw [Client.run_bind, Client.run_ofExcept, h]
  dsimp only
  rw [Client.run_bind, Client.run_ofExcept, hdoc]
  dsimp only
  rw [Client.run_bind, Client.run_ofExcept, hadd]
  dsimp only
  rw [Client.run_bind, AddStatement.run_execute _ (List.cons_ne_nil _ _), hrequest]
  dsimp only
  cases (connection.send (.insert c.target [.obj (under id doc)] true) state.server).1 with
  | error e => rfl
  | ok response =>
      show _ = (response.affectedBy "insert", _)
      dsimp only [Except.bind]
      cases response.affectedBy "insert" <;> rfl

/-! ## The rows -/

variable {version : Version} {session : SessionId} {state : ClientState Store} {stored : Rows}
  {s : String}

/-- The document of a row under a text that has this text for its identifier is the only one that a
lookup by the text finds. -/
theorem filter_hasId_text (h : Keyed stored) (hrow : Assoc.get? stored s = some doc)
    (hown : Assoc.get? doc idField = some (.str s)) :
    stored.filter (hasId (.str s)) = [(s, doc)] := by
  have hmem : (s, doc) ∈ stored.filter (hasId (.str s)) := by
    refine List.mem_filter.mpr ⟨Assoc.mem_of_get? hrow, ?_⟩
    rw [hasId, hown, Option.any_some]
    exact Value.looselyEquals_str_self s
  have hrigid : (Value.str s).isRigid = true := rfl
  have hone := length_filter_hasId_le (text_of_isRigid hrigid) h
  obtain ⟨only, honly⟩ := List.length_eq_one_iff.mp
    (Nat.le_antisymm hone (List.length_pos_of_mem hmem))
  rw [honly] at hmem ⊢
  rw [List.mem_singleton.mp hmem]

theorem filter_hasId_text_of_none (h : Keyed stored) (hrow : Assoc.get? stored s = none) :
    stored.filter (hasId (.str s)) = [] := by
  refine List.filter_eq_nil_iff.mpr fun row hmem hhas => ?_
  obtain ⟨own, hown, hkey⟩ := h.identified row hmem
  rw [hasId, hown, Option.any_some] at hhas
  obtain rfl : own = .str s := Value.eq_of_looselyEquals rfl hhas
  have hkey : row.1 = s := hkey
  exact Assoc.get?_eq_none_iff.mp hrow (hkey ▸ Assoc.mem_keys_of_mem hmem)

/-! ## Actions by a text -/

theorem window_singleton {α : Type} {limit : Option UInt64} (h : ∀ n, limit = some n → 1 ≤ n)
    (a : α) : Query.window limit none [a] = [a] := by
  cases limit with
  | none => rfl
  | some n =>
      have hn : 1 ≤ n.toNat := UInt64.le_iff_toNat_le.mp (h n rfl)
      exact List.take_of_length_le hn

theorem getOne_text (hs : requireId (.str s) = .ok ())
    (hlimit : ∀ n, c.session.defaultLimit = some n → 1 ≤ n)
    (hstored : state.server.rows? c.target = some stored) (h : Keyed stored)
    (hrow : Assoc.get? stored s = some doc)
    (hown : Assoc.get? doc idField = some (.str s)) :
    (c.getOne (.str s)).run (Store.connection version session) state = (.ok (some doc), state) := by
  rw [getOne_eq hs hstored, filter_hasId_text h hrow hown, window_singleton hlimit]
  rfl

theorem getOne_text_of_none (hs : requireId (.str s) = .ok ())
    (hstored : state.server.rows? c.target = some stored) (h : Keyed stored)
    (hrow : Assoc.get? stored s = none) :
    (c.getOne (.str s)).run (Store.connection version session) state = (.ok none, state) := by
  have hnone : Query.window c.session.defaultLimit none ([] : Rows) = [] :=
    List.sublist_nil.mp (Query.window_sublist _ _ _)
  rw [getOne_eq hs hstored, filter_hasId_text_of_none h hrow, hnone]
  rfl

theorem removeOne_text (hs : requireId (.str s) = .ok ())
    (hstored : state.server.rows? c.target = some stored) (h : Keyed stored)
    (hrow : Assoc.get? stored s = some doc)
    (hown : Assoc.get? doc idField = some (.str s))
    (hfree : state.server.Free session ⟨c.target, s⟩) :
    (c.removeOne (.str s)).run (Store.connection version session) state
      = (.ok 1, { state with server := state.server.write session ⟨⟨c.target, s⟩, none⟩ }) := by
  have hfilter := filter_hasId_text h hrow hown
  rw [removeOne_eq hs hstored, hfilter]
  · rfl
  · intro row hrow
    rw [hfilter] at hrow
    obtain rfl := List.mem_singleton.mp hrow
    exact Store.free_iff.mp hfree

theorem addOrReplaceOne_text (hs : requireId (.str s) = .ok ())
    (hversion : c.session.version.supports Version.upsert = true)
    (hstored : state.server.rows? c.target = some stored)
    (hfree : state.server.Free session ⟨c.target, s⟩) (hdoc : source.toDocument = .ok doc)
    (hown : ∀ own, Assoc.get? doc idField = some own → own = .str s) :
    (c.addOrReplaceOne (.str s) source).run (Store.connection version session) state
      = (.ok (UInt64.ofNat
          (Store.insertWeight (Assoc.get? stored s) (under (.str s) doc))),
        { state with
          server := state.server.write session ⟨⟨c.target, s⟩, some (under (.str s) doc)⟩ }) := by
  have hreplacement : replacement (.str s) source = .ok (Assoc.erase doc idField) :=
    replacement_eq hdoc fun own h => hown own h ▸ Value.looselyEquals_str_self s
  have hunder : under (.str s) (Assoc.erase doc idField) = under (.str s) doc := by
    rw [under, Assoc.erase_erase, under]
  have hsend : (Store.connection version session).send
      (.insert c.target [.obj (under (.str s) doc)] true) state.server = _ :=
    Store.execute_upsert hstored (identifiedBy_under (.str s) doc) hfree
  rw [run_addOrReplaceOne hversion hs hreplacement, hunder, hsend]
  rfl

theorem run_count (hstored : state.server.rows? c.target = some stored) :
    (c.count.run (Store.connection version session) state).1
      = .ok (UInt64.ofNat stored.length) := by
  have hcount : state.server.execute session (.count c.target)
      = (.ok (.count (UInt64.ofNat stored.length)), state.server) := by
    rw [Store.execute, Store.rows_eq_ok.mpr hstored]
    rfl
  rw [count, Client.run_bind, Client.run_send, Store.connection]
  dsimp only
  rw [hcount]
  rfl

/-! ## The main statement -/

/-- A document is stored under a text that is no blank, in a collection that is there and in whose
row of that text no other session has a lock.  The answer is 1 if the row is new, 0 if it holds an
equal document and 2 if it holds another one.  Then the document is read by the text, with the text
as its first member; the count has gone up by one if the row is new; and all other rows and
collections are as before.  A removal by the text answers 1, and nothing is read by it any more.  Both
look the document up by the condition `_id = :id`. -/
theorem stored_under_text {history : List Event} (hsent : ∀ event ∈ history, event.Sent)
    (hserver : state.server = (Store.empty version).run history)
    (hstored : state.server.rows? c.target = some stored)
    (hversion : c.session.version.supports Version.upsert = true)
    (hlimit : ∀ n, c.session.defaultLimit = some n → 1 ≤ n)
    (hs : (Text.trim s.toList).isEmpty = false)
    (hfree : ∀ holder ∈ state.server.locks.holders ⟨c.target, s⟩, holder.1 = session)
    (hdoc : source.toDocument = .ok doc)
    (hown : ∀ own, Assoc.get? doc idField = some own → own = .str s) :
    let connection := Store.connection version session
    let whole : Document := (idField, .str s) :: Assoc.erase doc idField
    let added := (c.addOrReplaceOne (.str s) source).run connection state
    let found := (c.getOne (.str s)).run connection added.2
    let removed := (c.removeOne (.str s)).run connection found.2
    let gone := (c.getOne (.str s)).run connection removed.2
    added.1 = .ok (match Assoc.get? stored s with
        | none => 1
        | some old => if Value.obj old == Value.obj whole then 0 else 2)
      ∧ found.1 = .ok (some whole)
      ∧ (c.count.run connection state).1 = .ok (UInt64.ofNat stored.length)
      ∧ (c.count.run connection added.2).1 = .ok (UInt64.ofNat
          (stored.length + if (Assoc.get? stored s).isNone then 1 else 0))
      ∧ (∃ rows, added.2.server.rows? c.target = some rows
          ∧ Assoc.erase rows s = Assoc.erase stored s)
      ∧ (∀ other, other ≠ c.target → added.2.server.rows? other = state.server.rows? other)
      ∧ removed.1 = .ok 1
      ∧ removed.2.server.rows? c.target = some (Assoc.erase stored s)
      ∧ gone.1 = .ok none
      ∧ (c.find idCondition).map (fun lookup => lookup.bind "id" (.str s)) = .ok (c.byId (.str s))
      ∧ (c.remove idCondition).map (fun lookup => lookup.bind "id" (.str s))
        = .ok (c.byId (.str s)) := by
  intro connection whole added found removed gone
  have hid : requireId (.str s) = .ok () := by
    rw [requireId, Statement.requireText, hs]
    rfl
  have hfree := Store.free_iff.mpr hfree
  have hkeyed : Keyed stored := Keyed.of_run hsent (hserver ▸ hstored)
  -- What the collection holds once the document has been stored
  let write : RowWrite := ⟨⟨c.target, s⟩, some whole⟩
  let after : ClientState Store := { state with server := state.server.write session write }
  have hwritten : after.server.rows? c.target = some (Assoc.insert stored s whole) :=
    Store.rows?_write_self hstored
  have hafter : Keyed (Assoc.insert stored s whole) := hkeyed.insert (identifiedBy_under (.str s) doc)
  have hrow := Assoc.get?_insert_self stored s whole
  have hthere : Assoc.get? whole idField = some (.str s) := rfl
  -- The actions one after the other
  have hadded : added = (.ok (UInt64.ofNat (Store.insertWeight (Assoc.get? stored s) whole)), after) :=
    addOrReplaceOne_text hid hversion hstored hfree hdoc hown
  have hfound : found = (.ok (some whole), after) := by
    show (c.getOne (.str s)).run connection added.2 = _
    rw [hadded]
    exact getOne_text hid hlimit hwritten hafter hrow hthere
  have hremoved : removed = (.ok 1, { after with
      server := after.server.write session ⟨⟨c.target, s⟩, none⟩ }) := by
    show (c.removeOne (.str s)).run connection found.2 = _
    rw [hfound]
    exact removeOne_text hid hwritten hafter hrow hthere (Store.free_write hfree)
  have hleft : removed.2.server.rows? c.target = some (Assoc.erase stored s) := by
    rw [hremoved]
    exact (Store.rows?_write_self hwritten).trans
      (congrArg some (Assoc.erase_insert_self stored s whole))
  have hgone : gone = (.ok none, removed.2) :=
    getOne_text_of_none hid hleft (hkeyed.erase s) (Assoc.get?_erase_self stored s)
  rw [hadded, hgone]
  refine ⟨congrArg Except.ok (Store.ofNat_insertWeight _ _), congrArg Prod.fst hfound, run_count hstored, ?_,
    ⟨_, hwritten, Assoc.erase_insert_self stored s whole⟩, fun other hne => ?_,
    congrArg Prod.fst hremoved, hleft, rfl, c.find_idCondition _, c.conditional_idCondition _⟩
  · rw [run_count hwritten, Assoc.length_insert]
  · exact (Store.rows?_write other).trans (if_neg hne)

/-- The document under the number `1` gives way to one under the text `1`. -/
theorem stored_under_text_replaced :
    let c : Collection := ⟨⟨⟨8, 0, 19⟩, "test", some 1⟩, ⟨"test", "books"⟩⟩
    let history : List Event := [.opened, .request 0 (.createCollection c.target false),
      .request 0 (.insert c.target [.obj [("_id", .int 1)], .obj [("_id", .str "2")]] false)]
    let state : ClientState Store :=
      ⟨(Store.empty ⟨8, 0, 19⟩).run history, ⟨"ab12", 1, 0, 0, 0⟩, Clock.steady 0⟩
    let connection := Store.connection ⟨8, 0, 19⟩ 0
    let doc : Document := [("title", .str "Emma"), ("_id", .str "1")]
    let added := (c.addOrReplaceOne (.str "1") (.members doc)).run connection state
    let found := (c.getOne (.str "1")).run connection added.2
    let removed := (c.removeOne (.str "1")).run connection found.2
    added.1 = .ok 2
      ∧ found.1 = .ok (some [("_id", .str "1"), ("title", .str "Emma")])
      ∧ (c.count.run connection added.2).1 = .ok 2
      ∧ removed.1 = .ok 1
      ∧ removed.2.server.rows? c.target = some [("2", [("_id", .str "2")])] := by
  intro c history state connection doc added found removed
  have hsent : ∀ event ∈ history, event.Sent := by simp [history, Event.Sent]
  have hstored : state.server.rows? c.target
      = some [("1", [("_id", .int 1)]), ("2", [("_id", .str "2")])] := by
    dsimp only [state, history, c]
    rfl
  have hfree : ∀ holder ∈ state.server.locks.holders ⟨c.target, "1"⟩, holder.1 = 0 := by
    dsimp only [state, history, c]
    exact List.forall_mem_nil _
  have hlimit : ∀ n, c.session.defaultLimit = some n → 1 ≤ n := by
    rintro n ⟨⟩
    decide
  have hdoc : (Source.members doc).toDocument = .ok doc := rfl
  have hown : ∀ own, Assoc.get? doc idField = some own → own = .str "1" := by
    rintro own ⟨⟩
    rfl
  have hserver : state.server = (Store.empty ⟨8, 0, 19⟩).run history := rfl
  have hversion : c.session.version.supports Version.upsert = true := rfl
  have hs : (Text.trim "1".toList).isEmpty = false := rfl
  obtain ⟨hadded, hfound, -, hcount, -, -, hremoved, hleft, -⟩ :=
    stored_under_text hsent hserver hstored hversion hlimit hs hfree hdoc hown
  refine ⟨hadded, hfound, hcount, hremoved, ?left⟩
  case left =>
    rw [hleft]
    rfl

end Collection

end DocStore
