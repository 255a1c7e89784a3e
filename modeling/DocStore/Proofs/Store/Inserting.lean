import DocStore.Proofs.Store.History
import DocStore.Proofs.Store.Selection

/-!
# Inserting documents

What the documents of an insertion must be for it to succeed, and what it then makes of the
collection.  Without replacement, the documents are new rows (`Insertable`), and they are appended
to the rows that are there (`execute_insert_new`).
-/

namespace DocStore

/-- The document has an identifier, and `key` is its text. -/
def IdentifiedBy (doc : Document) (key : String) : Prop :=
  ∃ id, Assoc.get? doc idField = some id ∧ key = id.bareText

namespace Store

variable {store : Store} {session : SessionId} {target : CollectionName}

/-! ## Preparing -/

/-- Documents are prepared as the rows that they are to be: each under the text of its identifier
and, unless rows may be replaced, under one that is not taken. -/
theorem prepare_eq_ok_iff {upsert : Bool} {taken : List String} {documents : List Value}
    {prepared : Rows} :
    prepare upsert taken documents = .ok prepared
      ↔ documents = prepared.map (fun row => .obj row.2)
        ∧ (∀ row ∈ prepared, IdentifiedBy row.2 row.1)
        ∧ (upsert = false →
            (Assoc.keys prepared).Nodup ∧ ∀ key ∈ Assoc.keys prepared, key ∉ taken) := by
  induction documents generalizing taken prepared with
  | nil =>
      cases prepared with
      | nil => simp [prepare, Assoc.keys]
      | cons row rest => simp [prepare]
  | cons value rest ih =>
      constructor
      · intro h
        cases value with
        | obj doc =>
            rw [prepare] at h
            split at h
            · cases h
            · next id hid =>
                simp only at h
                split at h
                · cases h
                · next hfree =>
                    obtain ⟨others, hothers, h⟩ := Outcome.bind_eq_ok.mp h
                    cases h
                    obtain ⟨rfl, hidentified, hnew⟩ := ih.mp hothers
                    refine ⟨rfl, ?_, fun hupsert => ?_⟩
                    · intro row hrow
                      rcases List.mem_cons.mp hrow with rfl | hmem
                      · exact ⟨id, hid, rfl⟩
                      · exact hidentified row hmem
                    · obtain ⟨hdistinct, hdisjoint⟩ := hnew hupsert
                      have hkey : id.bareText ∉ taken := by simpa [hupsert] using hfree
                      refine ⟨List.nodup_cons.mpr ⟨?_, hdistinct⟩, fun key hmem => ?_⟩
                      · exact fun hmem => hdisjoint _ hmem List.mem_cons_self
                      · rcases List.mem_cons.mp hmem with rfl | hmem
                        · exact hkey
                        · exact fun htaken => hdisjoint key hmem (List.mem_cons_of_mem _ htaken)
        | _ => cases h
      · rintro ⟨hdocuments, hidentified, hnew⟩
        cases prepared with
        | nil => cases hdocuments
        | cons row others =>
            obtain ⟨key, doc⟩ := row
            obtain ⟨rfl, rfl⟩ := List.cons.inj hdocuments
            obtain ⟨id, hid, rfl⟩ := hidentified (key, doc) List.mem_cons_self
            have hrest : prepare upsert (id.bareText :: taken)
                (others.map fun row => .obj row.2) = .ok others := by
              refine ih.mpr ⟨rfl, fun row hrow => hidentified row (List.mem_cons_of_mem _ hrow),
                fun hupsert => ?_⟩
              obtain ⟨hdistinct, hdisjoint⟩ := hnew hupsert
              obtain ⟨hkey, hothers⟩ := List.nodup_cons.mp hdistinct
              refine ⟨hothers, fun key hmem => ?_⟩
              rw [List.mem_cons, not_or]
              exact ⟨fun heq => hkey (heq ▸ hmem), hdisjoint key (List.mem_cons_of_mem _ hmem)⟩
            have hfree : ¬ (!upsert && taken.contains id.bareText) = true := by
              cases upsert with
              | true => simp
              | false => simpa using (hnew rfl).2 _ List.mem_cons_self
            rw [prepare, hid]
            simp only
            rw [if_neg hfree, hrest]
            rfl

/-- A row is free for a session if no other session has a lock on it. -/
theorem free_iff {key : RowKey} :
    store.Free session key ↔ ∀ holder ∈ store.locks.holders key, holder.1 = session := by
  simp [Free, LockTable.conflict, Holders.conflict, RowLock.excludes]

theorem checkFree_eq_ok_iff {ids : List String} :
    store.checkFree session target ids = .ok ()
      ↔ ∀ id ∈ ids, ∀ holder ∈ store.locks.holders ⟨target, id⟩, holder.1 = session := by
  rw [checkFree]
  split
  · next hany =>
      obtain ⟨id, hid, hconflict⟩ := List.any_eq_true.mp hany
      refine iff_of_false ?_ fun h => ?_
      · rintro ⟨⟩
      · have hfree : store.Free session ⟨target, id⟩ := free_iff.mpr (h id hid)
        rw [Free, hconflict] at hfree
        cases hfree
  · next hnone =>
      refine iff_of_true rfl fun id hid => free_iff.mp ?_
      rw [List.any_eq_true, not_exists] at hnone
      exact Bool.eq_false_iff.mpr fun hconflict => hnone id ⟨hid, hconflict⟩

/-! ## New rows -/

/-- A session can insert the documents into a collection of the rows `stored`: as the rows `added`,
they stand under the texts of their identifiers, are new to the collection and one another, and
nobody else has locked them. -/
structure Insertable (store : Store) (session : SessionId) (target : CollectionName)
    (documents : List Value) (stored added : Rows) : Prop where
  there : store.rows? target = some stored
  documents : documents = added.map fun row => .obj row.2
  identified : ∀ row ∈ added, IdentifiedBy row.2 row.1
  distinct : (Assoc.keys added).Nodup
  new : ∀ key ∈ Assoc.keys added, key ∉ Assoc.keys stored
  free : ∀ key ∈ Assoc.keys added, ∀ holder ∈ store.locks.holders ⟨target, key⟩, holder.1 = session

/-- New rows are appended, each for one. -/
theorem putAll_new (session : SessionId) {stored added : Rows} (hthere : store.rows? target = some stored)
    (hdistinct : (Assoc.keys added).Nodup)
    (hnew : ∀ key ∈ Assoc.keys added, key ∉ Assoc.keys stored) :
    (store.putAll session target added).1 = added.length
      ∧ (store.putAll session target added).2.rows? target = some (stored ++ added)
      ∧ ∀ other, other ≠ target →
          (store.putAll session target added).2.rows? other = store.rows? other := by
  induction added generalizing store stored with
  | nil => exact ⟨rfl, by rw [List.append_nil]; exact hthere, fun _ _ => rfl⟩
  | cons row rest ih =>
      obtain ⟨key, doc⟩ := row
      obtain ⟨hkey, hrest⟩ := List.nodup_cons.mp hdistinct
      have hmissing : key ∉ Assoc.keys stored := hnew key List.mem_cons_self
      -- Storing one document is a write to its row.
      have hput : store.put session ⟨target, key⟩ doc
          = store.write session ⟨⟨target, key⟩, some doc⟩ := rfl
      have hnext : (store.put session ⟨target, key⟩ doc).rows? target
          = some (stored ++ [(key, doc)]) := by
        rw [hput, rows?_write, if_pos rfl, hthere, Option.map_some, RowWrite.apply]
        exact congrArg some (Assoc.insert_of_not_mem doc hmissing)
      have hlater : ∀ k ∈ Assoc.keys rest, k ∉ Assoc.keys (stored ++ [(key, doc)]) := by
        intro k hk hmem
        rw [Assoc.keys, List.map_append] at hmem
        rcases List.mem_append.mp hmem with hmem | hmem
        · exact hnew k (List.mem_cons_of_mem _ hk) hmem
        · obtain rfl := List.mem_singleton.mp hmem
          exact hkey hk
      obtain ⟨hcount, hrows, hothers⟩ := ih hnext hrest hlater
      refine ⟨?_, ?_, fun other hne => ?_⟩
      · have hrow : store.row? ⟨target, key⟩ = none := by
          rw [row?, hthere, Option.bind_some]
          exact Assoc.get?_eq_none_iff.mpr hmissing
        rw [putAll]
        simp only
        rw [hcount, hrow, insertWeight, List.length_cons, Nat.add_comm]
      · rw [putAll]
        simp only
        rw [hrows, List.append_assoc, List.singleton_append]
      · rw [putAll]
        simp only
        rw [hothers other hne, hput, rows?_write, if_neg hne]

theorem insertedRows_eq_ok_iff {documents : List Value} {added : Rows} :
    store.insertedRows session target documents false = .ok added
      ↔ ∃ stored, store.Insertable session target documents stored added := by
  constructor
  · intro h
    rw [insertedRows] at h
    obtain ⟨stored, hstored, h⟩ := Outcome.bind_eq_ok.mp h
    obtain ⟨prepared, hprepared, h⟩ := Outcome.bind_eq_ok.mp h
    obtain ⟨done, hfree, h⟩ := Outcome.bind_eq_ok.mp h
    cases h
    obtain ⟨hdocuments, hidentified, hnew⟩ := prepare_eq_ok_iff.mp hprepared
    obtain ⟨hdistinct, hdisjoint⟩ := hnew rfl
    exact ⟨stored, rows_eq_ok.mp hstored, hdocuments, hidentified, hdistinct, hdisjoint,
      checkFree_eq_ok_iff.mp hfree⟩
  · rintro ⟨stored, h⟩
    rw [insertedRows, rows_eq_ok.mpr h.there]
    show (prepare false (Assoc.keys stored) documents >>= fun prepared => _) = _
    rw [prepare_eq_ok_iff.mpr ⟨h.documents, h.identified, fun _ => ⟨h.distinct, h.new⟩⟩]
    show (store.checkFree session target (Assoc.keys added) >>= fun _ => _) = _
    rw [checkFree_eq_ok_iff.mpr h.free]
    rfl

/-- An insertion that must not replace anything succeeds exactly if its documents are new rows. -/
theorem execute_insert_eq_ok_iff {documents : List Value} :
    (∃ response, (store.execute session (.insert target documents false)).1 = .ok response)
      ↔ ∃ stored added, store.Insertable session target documents stored added := by
  rw [execute, insert_eq]
  constructor
  · rintro ⟨response, h⟩
    cases hadded : store.insertedRows session target documents false with
    | error e =>
        rw [hadded] at h
        cases h
    | ok added =>
        obtain ⟨stored, hinsertable⟩ := insertedRows_eq_ok_iff.mp hadded
        exact ⟨stored, added, hinsertable⟩
  · rintro ⟨stored, added, h⟩
    rw [insertedRows_eq_ok_iff.mpr ⟨stored, h⟩]
    exact ⟨_, rfl⟩

/-- An insertion appends its documents in order and answers with their number. -/
theorem execute_insert_new {documents : List Value} {stored added : Rows}
    (h : store.Insertable session target documents stored added) :
    (store.execute session (.insert target documents false)).1
        = .ok (.affected (UInt64.ofNat documents.length))
      ∧ (store.execute session (.insert target documents false)).2.rows? target
        = some (stored ++ added)
      ∧ ∀ other, other ≠ target →
          (store.execute session (.insert target documents false)).2.rows? other
            = store.rows? other := by
  have hexecute : store.execute session (.insert target documents false)
      = (.ok (affected (store.putAll session target added).1),
          (store.putAll session target added).2) := by
    rw [execute, insert_eq, insertedRows_eq_ok_iff.mpr ⟨stored, h⟩]
    rfl
  obtain ⟨hcount, hrows, hothers⟩ := putAll_new session h.there h.distinct h.new
  rw [hexecute]
  refine ⟨?_, hrows, hothers⟩
  rw [hcount, affected, h.documents, List.length_map]

end Store

end DocStore
