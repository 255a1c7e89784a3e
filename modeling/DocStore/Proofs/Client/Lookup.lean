import DocStore.Proofs.Client.Condition
import DocStore.Proofs.Client.Running
import DocStore.Proofs.Store.Agreement
import DocStore.Proofs.Store.RowKeys
import DocStore.Proofs.Value.Loose
import DocStore.Store.Connection

/-!
# Looking a document up by its identifier

Actions on single documents select rows by comparing identifiers loosely (`hasId`), while rows are
kept apart by the texts of their identifiers.  Main statement: `names_one_iff`.  An identifier names
at most one document, whatever has happened to the store, exactly if all identifiers that loosely
equal it have one text.

Rigid identifiers are of that kind (`text_of_isRigid`), texts among them.  Numbers are not: `1` and
`1.0` may be stored side by side, and each of them then names both documents (`one_names_both`).
-/

namespace DocStore.Collection

/-! ## The calls as requests -/

variable {σ : Type} {connection : Connection σ} {state : ClientState σ} {c : Collection}
  {id : Value} {source : Source}

/-- The options of a lookup as they are sent. -/
def lookup (id : Value) : Options where
  filter := some (.binary .eq (.field (.ofMember idField)) (.literal id))

/-- The options of a lookup that reads. -/
def reading (c : Collection) (id : Value) : Options :=
  { lookup id with limit := c.session.defaultLimit }

/-- The operations that put a document in the place of another. -/
def replacing (doc : Document) : List Operation := [.set ⟨[]⟩ (.literal (.obj doc))]

theorem bindings_byId {purpose : Purpose} :
    (c.byId id : Statement purpose).bindings = ⟨[("id", id)]⟩ := by
  show Bindings.set {} "id" id = _
  rw [Bindings.set, Bindings.normalize_id]
  rfl

theorem boundOptions_byId {purpose : Purpose} :
    (c.byId id : Statement purpose).boundOptions.1 = lookup id := by
  show (c.byId id : Statement purpose).bindings.applyOptions { filter := some idFilter } = _
  rw [bindings_byId]
  rfl

theorem run_getOne (h : requireId id = .ok ()) :
    (c.getOne id).run connection state
      = (((connection.send (.find c.target (c.reading id) none) state.server).1
          >>= DocResult.ofResponse).map (fun found => found.documents.head?),
        { state with
          server := (connection.send (.find c.target (c.reading id) none) state.server).2 }) := by
  have hrequest : (c.byId id : Statement .find).findRequest.1
      = .ok (.find c.target (c.reading id) none) := by
    simp only [Statement.findRequest, boundOptions_byId]
    rfl
  rw [getOne, Client.run_bind, Client.run_ofExcept, h]
  dsimp only
  rw [Statement.fetchOne, Client.run_bind, Statement.fetch, Client.run_bind, Client.run_ofExcept,
    hrequest]
  dsimp only
  rw [Client.run_bind, Client.run_send]
  cases (connection.send (.find c.target (c.reading id) none) state.server).1 with
  | error e => rfl
  | ok response =>
      dsimp only
      rw [Client.run_ofExcept]
      show _ = ((DocResult.ofResponse response).map _, _)
      cases DocResult.ofResponse response <;> rfl

theorem run_removeOne (h : requireId id = .ok ()) :
    (c.removeOne id).run connection state
      = ((connection.send (.delete c.target (lookup id)) state.server).1
          >>= Response.affectedBy "delete",
        { state with
          server := (connection.send (.delete c.target (lookup id)) state.server).2 }) := by
  have hrequest : (c.byId id : Statement .remove).removeRequest.1 = .delete c.target (lookup id) := by
    simp only [Statement.removeRequest, boundOptions_byId]
    rfl
  rw [removeOne, Client.run_bind, Client.run_ofExcept, h]
  dsimp only
  rw [Statement.remove, Client.run_bind, Client.run_send, hrequest]
  cases (connection.send (.delete c.target (lookup id)) state.server).1 with
  | error e => rfl
  | ok response => exact Client.run_ofExcept _

theorem run_replaceOne {doc : Document} (h : requireId id = .ok ())
    (hdoc : replacement id source = .ok doc) :
    (c.replaceOne id source).run connection state
      = ((connection.send (.update c.target (lookup id) (replacing doc)) state.server).1
          >>= Response.affectedBy "update",
        { state with
          server := (connection.send (.update c.target (lookup id) (replacing doc))
            state.server).2 }) := by
  have hrequest : ((c.byId id).replaceWith doc).modifyRequest.1
      = .update c.target (lookup id) (replacing doc) := by
    have hoptions : ((c.byId id).replaceWith doc).boundOptions.1 = lookup id := boundOptions_byId
    simp only [Statement.modifyRequest, hoptions]
    rfl
  rw [replaceOne, Client.run_bind, Client.run_ofExcept, h]
  dsimp only
  rw [Client.run_bind, Client.run_ofExcept, hdoc]
  dsimp only
  rw [Statement.modify, Client.run_bind, Client.run_send, hrequest]
  cases (connection.send (.update c.target (lookup id) (replacing doc)) state.server).1 with
  | error e => rfl
  | ok response => exact Client.run_ofExcept _

/-! ## The rows of a lookup -/

/-- The row has an identifier that loosely equals `id`. -/
def hasId (id : Value) (row : String × Document) : Bool :=
  (Assoc.get? row.2 idField).any fun own => own.looselyEquals id

variable {store : Store} {session : SessionId} {target : CollectionName} {rows stored : Rows}

theorem isNull_of_requireId (h : requireId id = .ok ()) : id.isNull = false := by
  cases id with
  | null => cases h
  | _ => rfl

theorem passes_lookup (hid : id.isNull = false) (row : String × Document) :
    Expr.passes (lookup id).filter (.obj row.2) = .ok (hasId id row) := by
  have hfield : Scope.fieldValue (.row (.obj row.2)) (.ofMember idField)
      = (Assoc.get? row.2 idField).getD .null := by
    show (((Assoc.get? row.2 idField).toList ++ []).headD .null) = _
    cases Assoc.get? row.2 idField <;> rfl
  have heval : Expr.passes (lookup id).filter (.obj row.2)
      = .ok (Arithmetic.binary .eq (Scope.fieldValue (.row (.obj row.2)) (.ofMember idField)) id).isTruthy :=
    rfl
  rw [heval, hfield, hasId]
  refine congrArg Except.ok ?_
  cases Assoc.get? row.2 idField with
  | none => rfl
  | some own =>
      rw [Option.getD_some, Option.any_some, Arithmetic.binary, hid, Bool.or_false]
      cases hnull : own.isNull with
      | false => rfl
      | true =>
          -- Null equals nothing but null.
          obtain rfl : own = .null := by cases own <;> first | rfl | cases hnull
          cases id <;> first | rfl | cases hid

theorem filterRows_lookup (hid : id.isNull = false) (rows : Rows) :
    Store.filterRows (lookup id).filter rows = .ok (rows.filter (hasId id)) := by
  induction rows with
  | nil => rfl
  | cons row rest ih =>
      rw [Store.filterRows, passes_lookup hid, ih]
      cases h : hasId id row <;> simp [h, List.filter] <;> rfl

theorem selected_lookup (hid : id.isNull = false) (hstored : store.rows? target = some stored)
    (limit : Option UInt64) :
    store.selected target { lookup id with limit }
      = .ok (Query.window limit none (stored.filter (hasId id))) := by
  rw [Store.selected, Store.rows_eq_ok.mpr hstored]
  show (Store.filterRows (lookup id).filter stored >>= fun _ => _) = _
  rw [filterRows_lookup hid]
  rfl

/-! ### What the calls answer -/

variable {version : Version} {state : ClientState Store}

theorem ofResponse_documents (rows : Rows) :
    DocResult.ofResponse (.documents (Store.documentsOf rows)) = .ok ⟨rows.map Prod.snd⟩ := by
  have hdocuments : (Store.documentsOf rows).mapM DocResult.document = .ok (rows.map Prod.snd) := by
    induction rows with
    | nil => rfl
    | cons row rest ih =>
        rw [Store.documentsOf, List.map_cons, List.mapM_cons]
        show (List.mapM DocResult.document (Store.documentsOf rest) >>= fun _ => _) = _
        rw [ih]
        rfl
  rw [DocResult.ofResponse, hdocuments]
  rfl

/-- The first of the documents that have the identifier is read, and nothing changes. -/
theorem getOne_eq (h : requireId id = .ok ())
    (hstored : state.server.rows? c.target = some stored) :
    (c.getOne id).run (Store.connection version session) state
      = (.ok ((Query.window c.session.defaultLimit none (stored.filter (hasId id))).head?.map
          Prod.snd), state) := by
  have hfind : (state.server.execute session (.find c.target (c.reading id) none)).1
      = .ok (.documents (Store.documentsOf
          (Query.window c.session.defaultLimit none (stored.filter (hasId id))))) := by
    rw [Store.execute_find_eq rfl rfl rfl, reading,
      selected_lookup (isNull_of_requireId h) hstored]
    rfl
  have hkept : (state.server.execute session (.find c.target (c.reading id) none)).2
      = state.server := by
    rw [Store.execute, Store.find]
    split <;> rfl
  rw [run_getOne h]
  show (((state.server.execute session _).1 >>= DocResult.ofResponse).map _, _) = _
  rw [hfind]
  refine Prod.ext ?_ (congrArg (fun server => { state with server }) hkept)
  show Except.map (fun found => found.documents.head?)
    (DocResult.ofResponse (.documents (Store.documentsOf _))) = _
  rw [ofResponse_documents]
  exact congrArg Except.ok List.head?_map

/-- All documents that have the identifier are removed, if no other session has locked one. -/
theorem removeOne_eq (h : requireId id = .ok ())
    (hstored : state.server.rows? c.target = some stored)
    (hfree : ∀ row ∈ stored.filter (hasId id),
      ∀ holder ∈ state.server.locks.holders ⟨c.target, row.1⟩, holder.1 = session) :
    (c.removeOne id).run (Store.connection version session) state
      = (.ok (UInt64.ofNat (stored.filter (hasId id)).length),
        { state with
          server := state.server.writeAll session
            (Store.removing c.target (stored.filter (hasId id))) }) := by
  have hselected : state.server.selected c.target (lookup id) = .ok (stored.filter (hasId id)) :=
    selected_lookup (isNull_of_requireId h) hstored none
  have hdelete := Store.execute_delete_eq (Store.selectForWrite_of_free hselected hfree)
  have hsend : (Store.connection version session).send (.delete c.target (lookup id)) state.server
      = _ := hdelete
  rw [run_removeOne h, hsend]
  rfl

/-! ## One document at most -/

/-- The rows of a collection have distinct keys, and each key is the text of the identifier in its
document. -/
structure Keyed (stored : Rows) : Prop where
  distinct : (Assoc.keys stored).Nodup
  identified : ∀ row ∈ stored, IdentifiedBy row.2 row.1

namespace Keyed

theorem of_run {history : List Event} (hsent : ∀ event ∈ history, event.Sent)
    (hstored : ((Store.empty version).run history).rows? target = some stored) : Keyed stored where
  distinct := ((Store.Reachable.empty version).run history).rowsDistinct target stored hstored
  identified := ((Store.identified_empty version).run hsent).rows target stored hstored

theorem insert (h : Keyed stored) {key : String} {doc : Document} (hdoc : IdentifiedBy doc key) :
    Keyed (Assoc.insert stored key doc) where
  distinct := Assoc.nodup_keys_insert key doc h.distinct
  identified row hrow := by
    rcases Assoc.eq_or_mem_of_mem_insert hrow with rfl | hrow
    · exact hdoc
    · exact h.identified row hrow

theorem erase (h : Keyed stored) (key : String) : Keyed (Assoc.erase stored key) where
  distinct := Assoc.nodup_keys_erase key h.distinct
  identified row hrow := h.identified row (Assoc.mem_erase.mp hrow).1

end Keyed

/-- Where all identifiers that loosely equal `id` have one text, `id` names one row at most. -/
theorem length_filter_hasId_le
    (hunique : ∀ v w : Value, v.looselyEquals id = true → w.looselyEquals id = true →
      v.bareText = w.bareText)
    (h : Keyed stored) : (stored.filter (hasId id)).length ≤ 1 := by
  have hkeys : ∀ a ∈ stored.filter (hasId id), ∃ v : Value, v.looselyEquals id = true
      ∧ a.1 = v.bareText := by
    intro a ha
    obtain ⟨hmem, hhas⟩ := List.mem_filter.mp ha
    obtain ⟨own, hown, hkey⟩ := h.identified a hmem
    rw [hasId, hown, Option.any_some] at hhas
    exact ⟨own, hhas, hkey⟩
  have hnodup : ((stored.filter (hasId id)).map Prod.fst).Nodup :=
    h.distinct.sublist (List.filter_sublist.map Prod.fst)
  cases hrows : stored.filter (hasId id) with
  | nil => exact Nat.zero_le 1
  | cons a rest =>
      cases rest with
      | nil => exact Nat.le_refl 1
      | cons b more =>
          -- The first two rows would have one key, but keys are distinct.
          rw [hrows] at hkeys hnodup
          obtain ⟨v, hv, ha⟩ := hkeys a List.mem_cons_self
          obtain ⟨w, hw, hb⟩ := hkeys b (List.mem_cons_of_mem _ List.mem_cons_self)
          have heq : a.1 = b.1 := by rw [ha, hb, hunique v w hv hw]
          refine absurd ?_ (List.nodup_cons.mp hnodup).1
          rw [heq]
          exact List.mem_cons_self

theorem text_of_isRigid (h : id.isRigid = true) (v w : Value) (hv : v.looselyEquals id = true)
    (hw : w.looselyEquals id = true) : v.bareText = w.bareText := by
  rw [Value.eq_of_looselyEquals h hv, Value.eq_of_looselyEquals h hw]

/-- Among the documents `stored`, an identifier names one at most: the condition of a lookup lets one
row through, a removal and a replacement by it count for one, and the document that is read by it is
the only one that can be. -/
structure NamesOne (c : Collection) (id : Value) (connection : Connection Store)
    (state : ClientState Store) (stored : Rows) : Prop where
  matched : ∃ rows, Store.filterRows (lookup id).filter stored = .ok rows ∧ rows.length ≤ 1
  removed : ∀ n, ((c.removeOne id).run connection state).1 = .ok n → n ≤ 1
  replaced : ∀ source n, ((c.replaceOne id source).run connection state).1 = .ok n → n ≤ 1
  read : ∀ doc, ((c.getOne id).run connection state).1 = .ok (some doc) →
    ∀ row ∈ stored, hasId id row = true → row.2 = doc

theorem ofNat_le_one {n : Nat} (h : n ≤ 1) : UInt64.ofNat n ≤ 1 := by
  rcases Nat.le_one_iff_eq_zero_or_eq_one.mp h with rfl | rfl <;> decide

theorem namesOne_of_length (h : requireId id = .ok ())
    (hstored : state.server.rows? c.target = some stored)
    (hone : (stored.filter (hasId id)).length ≤ 1) :
    NamesOne c id (Store.connection version session) state stored := by
  have hselected {rows : Rows}
      (hrows : state.server.selectForWrite session c.target (lookup id) = .ok rows) :
      rows = stored.filter (hasId id) := by
    have hlookup := selected_lookup (isNull_of_requireId h) hstored none
    exact Except.ok.inj ((Store.selected_of_selectForWrite hrows).symm.trans hlookup)
  refine ⟨⟨_, filterRows_lookup (isNull_of_requireId h) stored, hone⟩, ?_, ?_, ?_⟩
  · -- A removal that succeeds has removed what the lookup selects.
    intro n hn
    rw [run_removeOne h] at hn
    obtain ⟨response, hresponse, hn⟩ := Outcome.bind_eq_ok.mp hn
    obtain ⟨rows, hrows, rfl⟩ := Store.selected_of_execute_delete hresponse
    cases hn
    rw [hselected hrows]
    exact ofNat_le_one hone
  · intro source n hn
    cases hdoc : replacement id source with
    | error e =>
        -- Nothing is sent for a document of another identifier.
        rw [replaceOne, Client.run_bind, Client.run_ofExcept, h] at hn
        dsimp only at hn
        rw [Client.run_bind, Client.run_ofExcept, hdoc] at hn
        cases hn
    | ok doc =>
        -- It counts the selected documents that it has changed.
        rw [run_replaceOne h hdoc] at hn
        obtain ⟨response, hresponse, hn⟩ := Outcome.bind_eq_ok.mp hn
        obtain ⟨rows, hrows⟩ := Store.selected_of_execute_update hresponse
        obtain ⟨-, -, rfl⟩ := (Store.execute_update_iff hrows response).mp hresponse
        cases hn
        rw [hselected hrows]
        exact ofNat_le_one (Nat.le_trans List.countP_le_length hone)
  · intro doc hdoc row hrow hhas
    rw [getOne_eq h hstored] at hdoc
    obtain ⟨found, hfound, rfl⟩ := Option.map_eq_some_iff.mp (Except.ok.inj hdoc)
    have hmem : found ∈ stored.filter (hasId id) :=
      (Query.window_sublist _ _ _).subset (List.mem_of_mem_head? hfound)
    obtain ⟨only, honly⟩ := List.length_eq_one_iff.mp
      (Nat.le_antisymm hone (List.length_pos_of_mem hmem))
    have hrow := List.mem_filter.mpr ⟨hrow, hhas⟩
    rw [honly] at hmem hrow
    rw [List.mem_singleton.mp hmem, List.mem_singleton.mp hrow]

/-- Documents whose identifiers have different texts can be stored side by side. -/
theorem exists_history (v w : Value) (h : v.bareText ≠ w.bareText) :
    ∃ history : List Event, (∀ event ∈ history, event.Sent)
      ∧ ((Store.empty ⟨8, 0, 19⟩).run history).rows? default
        = some [(v.bareText, [(idField, v)]), (w.bareText, [(idField, w)])] := by
  let created := (Store.empty ⟨8, 0, 19⟩).run [.opened, .request 0 (.createCollection default false)]
  let added : Rows := [(v.bareText, [(idField, v)]), (w.bareText, [(idField, w)])]
  have hinsertable : created.Insertable 0 default [.obj [(idField, v)], .obj [(idField, w)]] []
      added := by
    refine ⟨rfl, rfl, ?_, by simpa [added, Assoc.keys] using h,
      fun _ _ hkey => (nomatch hkey), fun _ _ _ hholder => (nomatch hholder)⟩
    intro row hrow
    rcases List.mem_cons.mp hrow with rfl | hrow
    · exact ⟨v, rfl, rfl⟩
    · obtain rfl := List.mem_singleton.mp hrow
      exact ⟨w, rfl, rfl⟩
  refine ⟨[.opened, .request 0 (.createCollection default false),
    .request 0 (.insert default [.obj [(idField, v)], .obj [(idField, w)]] false)],
    by simp [Event.Sent], (Store.execute_insert_new hinsertable).2.1⟩

/-- An identifier names at most one document in every store that requests can lead to exactly if all
identifiers that loosely equal it have one text. -/
theorem names_one_iff {id : Value} (hid : requireId id = .ok ()) :
    (∀ v w : Value, v.looselyEquals id = true → w.looselyEquals id = true →
        v.bareText = w.bareText)
      ↔ ∀ (version : Version) (history : List Event), (∀ event ∈ history, event.Sent) →
          ∀ (c : Collection) (session : SessionId) (state : ClientState Store) (stored : Rows),
            state.server = (Store.empty version).run history →
            state.server.rows? c.target = some stored →
            NamesOne c id (Store.connection version session) state stored := by
  constructor
  · intro hunique version history hsent c session state stored hserver hstored
    have hkeyed : Keyed stored := Keyed.of_run hsent (hserver ▸ hstored)
    exact namesOne_of_length hid hstored (length_filter_hasId_le hunique hkeyed)
  · intro hall v w hv hw
    by_contra hne
    -- Documents under `v` and `w` can be side by side, and `id` names both.
    obtain ⟨history, hsent, hstored⟩ := exists_history v w hne
    obtain ⟨rows, hrows, hone⟩ := (hall ⟨8, 0, 19⟩ history hsent ⟨default, default⟩ 0
      ⟨_, default, Clock.steady 0⟩ _ rfl hstored).matched
    rw [filterRows_lookup (isNull_of_requireId hid)] at hrows
    cases hrows
    simp [hasId, Assoc.get?, hv, hw] at hone

/-- The text `1` names one document, though there is a number of the same value. -/
theorem names_one_iff_text :
    let c : Collection := ⟨⟨⟨8, 0, 19⟩, "test", none⟩, ⟨"test", "books"⟩⟩
    let history : List Event := [.opened, .request 0 (.createCollection c.target false),
      .request 0 (.insert c.target [.obj [("_id", .float 1.0)], .obj [("_id", .str "1")]] false)]
    let state : ClientState Store :=
      ⟨(Store.empty ⟨8, 0, 19⟩).run history, ⟨"ab12", 1, 0, 0, 0⟩, Clock.steady 0⟩
    let stored : Rows := [("1.0", [("_id", .float 1.0)]), ("1", [("_id", .str "1")])]
    requireId (.str "1") = .ok ()
      ∧ (∀ event ∈ history, event.Sent)
      ∧ state.server.rows? c.target = some stored
      ∧ NamesOne c (.str "1") (Store.connection ⟨8, 0, 19⟩ 0) state stored := by
  intro c history state stored
  have hsent : ∀ event ∈ history, event.Sent := by simp [history, Event.Sent]
  have hstored : state.server.rows? c.target = some stored := by
    dsimp only [state, history, stored, c]
    rfl
  exact ⟨rfl, hsent, hstored,
    (names_one_iff rfl).mp (text_of_isRigid rfl) ⟨8, 0, 19⟩ history hsent c 0 state stored rfl hstored⟩

/-- Documents are stored under `1` and under `1.0`; then the first is removed, or replaced, and the
second with it. -/
theorem one_names_both :
    let c : Collection := ⟨⟨⟨8, 0, 19⟩, "test", none⟩, ⟨"test", "books"⟩⟩
    let connection := Store.connection ⟨8, 0, 19⟩ 0
    let created : ClientState Store :=
      ⟨(Store.empty ⟨8, 0, 19⟩).run [.opened, .request 0 (.createCollection c.target false)],
        ⟨"ab12", 1, 0, 0, 0⟩, Clock.steady 0⟩
    let first := (c.addOrReplaceOne (.int 1) (.members [("v", .int 1)])).run connection created
    let second := (c.addOrReplaceOne (.float 1.0) (.members [("v", .int 2)])).run connection first.2
    first.1 = .ok 1 ∧ second.1 = .ok 1
      ∧ ((c.removeOne (.int 1)).run connection second.2).1 = .ok 2
      ∧ ((c.replaceOne (.int 1) (.members [])).run connection second.2).1 = .ok 2 := by
  intro c connection created first second
  have hdoc : replacement (.int 1) (.members []) = .ok [] := rfl
  refine ⟨rfl, rfl, ?removed, ?replaced⟩
  case removed =>
    rw [run_removeOne rfl]
    rfl
  case replaced =>
    rw [run_replaceOne rfl hdoc]
    rfl

end DocStore.Collection
