import DocStore.Proofs.Assoc
import DocStore.Proofs.Client.Adding
import DocStore.Proofs.Identity

/-!
# Identifiers are given once

Main statement: `identifiers_given_once`.  However calls on statements that share a source of
identifiers follow one another, each document without an identifier gets one at the next request and
keeps it, the others are sent as they came, and all identifiers are different.

Two facts about runs carry it.  A statement holds the documents it has been given with the
identifiers it has made filled in (`Holds`, kept along `Extends`).  The serials of all identifiers
are those that the source has given, in some order (`Numbered`).
-/

namespace DocStore

/-! ## Filling -/

section Fill

variable {doc : Document} {rest docs more : List Document} {ids ids' : List String}

theorem lacksId_iff : lacksId doc = true ↔ ¬Assoc.contains doc idField = true := by
  rw [lacksId, Bool.not_eq_true', Bool.not_eq_true]

theorem contains_of_not_lacksId (h : ¬lacksId doc = true) : Assoc.contains doc idField = true :=
  not_not.mp (mt lacksId_iff.mpr h)

theorem fill_nil (docs : List Document) : fill [] docs = docs := by rw [fill]

theorem fill_kept (h : ¬lacksId doc = true) : fill ids (doc :: rest) = doc :: fill ids rest := by
  cases ids with
  | nil => rw [fill_nil, fill_nil]
  | cons id ids => rw [fill, if_neg h]

theorem fill_made (h : lacksId doc = true) (id : String) :
    fill (id :: ids) (doc :: rest) = ((idField, .str id) :: doc) :: fill ids rest := by
  rw [fill, if_pos h]

/-- Identifiers for all that need one leave the others for the documents after them. -/
theorem fill_append (h : ids.length = docs.countP lacksId) :
    fill (ids ++ ids') (docs ++ more) = fill ids docs ++ fill ids' more := by
  induction docs generalizing ids with
  | nil =>
      obtain rfl := List.length_eq_zero_iff.mp h
      rfl
  | cons doc rest ih =>
      by_cases hlacks : lacksId doc = true
      · rw [List.countP_cons_of_pos hlacks] at h
        obtain ⟨id, ids, rfl⟩ := List.exists_cons_of_length_eq_add_one h
        rw [List.cons_append, List.cons_append, fill_made hlacks, fill_made hlacks,
          ih (Nat.succ.inj h), List.cons_append]
      · rw [List.countP_cons_of_neg hlacks] at h
        rw [List.cons_append, fill_kept hlacks, fill_kept hlacks, ih h, List.cons_append]

/-- Documents after those that the identifiers are for stay as they are. -/
theorem fill_append_of_le (h : ids.length ≤ docs.countP lacksId) :
    fill ids (docs ++ more) = fill ids docs ++ more := by
  induction docs generalizing ids with
  | nil =>
      obtain rfl := List.length_eq_zero_iff.mp (Nat.le_zero.mp h)
      exact fill_nil more
  | cons doc rest ih =>
      by_cases hlacks : lacksId doc = true
      · cases ids with
        | nil => rw [fill_nil, fill_nil]
        | cons id ids =>
            rw [List.countP_cons_of_pos hlacks] at h
            rw [List.cons_append, fill_made hlacks, fill_made hlacks,
              ih (Nat.le_of_succ_le_succ h), List.cons_append]
      · rw [List.countP_cons_of_neg hlacks] at h
        rw [List.cons_append, fill_kept hlacks, fill_kept hlacks, ih h, List.cons_append]

theorem contains_of_mem_fill (h : ids.length = docs.countP lacksId) :
    ∀ doc ∈ fill ids docs, Assoc.contains doc idField = true := by
  induction docs generalizing ids with
  | nil =>
      obtain rfl := List.length_eq_zero_iff.mp h
      exact fun _ hdoc => nomatch hdoc
  | cons doc rest ih =>
      by_cases hlacks : lacksId doc = true
      · rw [List.countP_cons_of_pos hlacks] at h
        obtain ⟨id, ids, rfl⟩ := List.exists_cons_of_length_eq_add_one h
        rw [fill_made hlacks]
        exact List.forall_mem_cons.mpr ⟨rfl, ih (Nat.succ.inj h)⟩
      · rw [List.countP_cons_of_neg hlacks] at h
        rw [fill_kept hlacks]
        exact List.forall_mem_cons.mpr ⟨contains_of_not_lacksId hlacks, ih h⟩

end Fill

/-! ## Assigning -/

namespace AddStatement

variable {doc : Document} {rest docs : List Document} {made : List String} {s : AddStatement}

theorem assign_kept (h : Assoc.contains doc idField = true) (clock : Clock) (ids : Identity) :
    assign clock (doc :: rest) ids =
      ((doc :: (assign clock rest ids).1.1, (assign clock rest ids).1.2),
        (assign clock rest ids).2) := by
  rw [assign, if_pos h]

theorem assign_made (h : lacksId doc = true) (clock : Clock) (ids : Identity) :
    assign clock (doc :: rest) ids =
      ((((idField, .str (ids.next (clock 0)).1) :: doc)
          :: (assign clock.tail rest (ids.next (clock 0)).2).1.1,
        (ids.next (clock 0)).1 :: (assign clock.tail rest (ids.next (clock 0)).2).1.2),
        (assign clock.tail rest (ids.next (clock 0)).2).2) := by
  have hnot := lacksId_iff.mp h
  rw [assign, if_neg hnot]
  dsimp only
  rw [Assoc.insertAt_zero_of_not_contains _ hnot]

/-- Documents that have been filled in part are filled on where it stopped. -/
theorem assign_fill (h : made.length ≤ docs.countP lacksId) (clock : Clock) (ids : Identity) :
    (assign clock (fill made docs) ids).1.1
        = fill (made ++ (assign clock (fill made docs) ids).1.2) docs ∧
      (made ++ (assign clock (fill made docs) ids).1.2).length = docs.countP lacksId := by
  induction docs generalizing made clock ids with
  | nil =>
      obtain rfl := List.length_eq_zero_iff.mp (Nat.le_zero.mp h)
      exact ⟨rfl, rfl⟩
  | cons doc rest ih =>
      by_cases hlacks : lacksId doc = true
      · rw [List.countP_cons_of_pos hlacks] at h ⊢
        cases made with
        | nil =>
            -- Earlier identifiers have run out: from here on, documents are as they were queued.
            obtain ⟨hdocs, hlength⟩ :=
              @ih [] (Nat.zero_le _) clock.tail (ids.next (clock 0)).2
            rw [fill_nil] at hdocs hlength ⊢
            rw [assign_made hlacks]
            dsimp only
            rw [List.nil_append, fill_made hlacks, List.length_cons]
            exact ⟨congrArg _ hdocs, congrArg (· + 1) hlength⟩
        | cons id made =>
            -- The document has been filled before, so it is passed over now.
            obtain ⟨hdocs, hlength⟩ := ih (Nat.le_of_succ_le_succ h) clock ids
            rw [fill_made hlacks, assign_kept rfl]
            dsimp only
            rw [List.cons_append, fill_made hlacks, List.length_cons]
            exact ⟨congrArg _ hdocs, congrArg (· + 1) hlength⟩
      · rw [List.countP_cons_of_neg hlacks] at h ⊢
        obtain ⟨hdocs, hlength⟩ := ih h clock ids
        rw [fill_kept hlacks, assign_kept (contains_of_not_lacksId hlacks)]
        dsimp only
        rw [fill_kept hlacks]
        exact ⟨congrArg _ hdocs, hlength⟩

/-- The identifiers that are made have the next serials. -/
theorem map_serialOf_assign {total : Nat} (clock : Clock) (docs : List Document) {ids : Identity}
    (h : ids.serial = UInt64.ofNat total) :
    (assign clock docs ids).1.2.map Identity.serialOf
        = Identity.serials total (assign clock docs ids).1.2.length ∧
      (assign clock docs ids).2.serial
        = UInt64.ofNat (total + (assign clock docs ids).1.2.length) := by
  induction docs generalizing total clock ids with
  | nil => exact ⟨rfl, h⟩
  | cons doc rest ih =>
      by_cases hlacks : lacksId doc = true
      · have hserial : (ids.next (clock 0)).2.serial = UInt64.ofNat (total + 1) := by
          rw [Identity.serial_next, h, UInt64.ofNat_add]
          rfl
        obtain ⟨hmap, hafter⟩ := ih clock.tail hserial
        rw [assign_made hlacks]
        dsimp only
        rw [List.map_cons, List.length_cons, Identity.serials_succ, Identity.serialOf_next,
          ← Identity.serial_next ids (clock 0), hserial, UInt64.toNat_ofNat', hmap, hafter,
          Nat.add_right_comm, ← Nat.add_assoc]
        exact ⟨rfl, rfl⟩
      · rw [assign_kept (contains_of_not_lacksId hlacks)]
        exact ih clock h

/-! ## One statement -/

variable {σ : Type} {queued : List Document}

theorem run_execute (s : AddStatement) {connection : Connection σ} {state : ClientState σ}
    (h : s.documents ≠ []) :
    s.execute.run connection state =
      let ((request, next), after) := s.toRequest state.clock state.ids
      let (response, server) := connection.send request state.server
      (.ok ((response.bind (Response.affectedBy "insert")).map (⟨·, next.generatedIds⟩), next),
        ⟨server, after, state.clock⟩) := by
  rw [execute, if_neg (mt List.isEmpty_iff.mp h), Client.run_bind, Client.run_withIds]
  dsimp only
  rw [Client.run_bind, Client.run_attempt, Client.run_bind, Client.run_send]
  dsimp only
  cases (connection.send (s.toRequest state.clock state.ids).1.1 state.server).1 with
  | error e => rfl
  | ok response =>
      dsimp only [Except.bind]
      rw [Client.run_bind, Client.run_ofExcept]
      cases response.affectedBy "insert" <;> rfl

/-- The statement has been given some documents, and they have the identifiers that it has made. -/
structure Holds (queued : List Document) (s : AddStatement) : Prop where
  documents : s.documents = fill s.generatedIds queued
  generated : s.generatedIds.length ≤ queued.countP lacksId

theorem Holds.assignIds (h : s.Holds queued) (clock : Clock) (ids : Identity) :
    (s.assignIds clock ids).1.documents = fill (s.assignIds clock ids).1.generatedIds queued ∧
      (s.assignIds clock ids).1.generatedIds.length = queued.countP lacksId := by
  have hfill := assign_fill h.generated clock ids
  rw [← h.documents] at hfill
  exact hfill

/-- A call either adds documents or makes the identifiers that are missing. -/
theorem perform_cases (s : AddStatement) (ids : Identity) (call : AddCall σ) :
    (∃ upsert, call.clock? = none ∧
      s.perform ids call
        = ({ s with documents := s.documents ++ call.documents, upsert }, ids)) ∨
    ∃ clock, call.clock? = some clock ∧ call.documents = [] ∧
      s.perform ids call = s.assignIds clock ids := by
  cases call with
  | add source =>
      refine .inl ⟨s.upsert, rfl, ?_⟩
      rw [perform, AddStatement.add, AddCall.documents]
      cases source.toDocument with
      | error e =>
          rw [Except.toOption, Option.toList_none, List.append_nil]
          rfl
      | ok doc => rfl
  | replacing =>
      refine .inl ⟨true, rfl, ?_⟩
      rw [AddCall.documents, List.append_nil]
      · rfl
      · nofun
  | request clock => exact .inr ⟨clock, rfl, rfl, rfl⟩
  | execute clock connection server =>
      refine .inr ⟨clock, rfl, rfl, ?_⟩
      rw [perform]
      by_cases hdocs : s.documents = []
      · -- Nothing is sent, and no identifier is missing either.
        rw [execute, if_pos (List.isEmpty_iff.mpr hdocs), Client.run_pure, assignIds, hdocs]
        dsimp only [assign]
        rw [List.append_nil, ← hdocs]
      · rw [run_execute s hdocs]
        rfl

/-- What calls that add some documents make of a statement. -/
structure Extends (s : AddStatement) (added : List Document) (t : AddStatement) : Prop where
  holds : ∀ queued, s.Holds queued → t.Holds (queued ++ added)
  generated : ∃ more, t.generatedIds = s.generatedIds ++ more
  collection : t.collection = s.collection

theorem Extends.refl (s : AddStatement) : s.Extends [] s where
  holds queued h := by
    rw [List.append_nil]
    exact h
  generated := ⟨[], (List.append_nil _).symm⟩
  collection := rfl

theorem Extends.trans {t u : AddStatement} {added more : List Document} (h : s.Extends added t)
    (h' : t.Extends more u) : s.Extends (added ++ more) u where
  holds queued hs := by
    rw [← List.append_assoc]
    exact h'.holds _ (h.holds _ hs)
  generated := by
    obtain ⟨first, hfirst⟩ := h.generated
    obtain ⟨second, hsecond⟩ := h'.generated
    exact ⟨first ++ second, by rw [hsecond, hfirst, List.append_assoc]⟩
  collection := h'.collection.trans h.collection

theorem extends_perform (s : AddStatement) (ids : Identity) (call : AddCall σ) :
    s.Extends call.documents (s.perform ids call).1 := by
  rcases perform_cases s ids call with ⟨upsert, -, heq⟩ | ⟨clock, -, hnone, heq⟩
  · rw [heq]
    refine ⟨fun queued h => ⟨?_, ?_⟩, ⟨[], (List.append_nil _).symm⟩, rfl⟩
    · rw [fill_append_of_le h.generated, ← h.documents]
    · rw [List.countP_append]
      exact Nat.le_add_right_of_le h.generated
  · rw [heq, hnone]
    refine ⟨fun queued h => ?_, ⟨_, rfl⟩, rfl⟩
    rw [List.append_nil]
    obtain ⟨hdocs, hlength⟩ := h.assignIds clock ids
    exact ⟨hdocs, Nat.le_of_eq hlength⟩

/-- The identifiers that a call makes have the next serials of the source. -/
theorem exists_new_perform (s : AddStatement) {ids : Identity} {total : Nat}
    (h : ids.serial = UInt64.ofNat total) (call : AddCall σ) :
    ∃ new, (s.perform ids call).1.generatedIds = s.generatedIds ++ new ∧
      new.map Identity.serialOf = Identity.serials total new.length ∧
      (s.perform ids call).2.serial = UInt64.ofNat (total + new.length) := by
  rcases perform_cases s ids call with ⟨upsert, -, heq⟩ | ⟨clock, -, -, heq⟩
  · rw [heq]
    exact ⟨[], (List.append_nil _).symm, rfl, h⟩
  · rw [heq]
    exact ⟨(assign clock s.documents ids).1.2, rfl, map_serialOf_assign clock s.documents h⟩

end AddStatement

/-! ## All statements -/

namespace Adding

open AddStatement

variable {σ : Type} {a : Adding} {s : AddStatement} {i : Nat}

theorem queued_append (i : Nat) (first second : List (Nat × AddCall σ)) :
    queued i (first ++ second) = queued i first ++ queued i second :=
  List.flatMap_append

theorem exists_extends_step (h : a.statements[i]? = some s) (j : Nat) (call : AddCall σ) :
    ∃ t, (a.step j call).statements[i]? = some t ∧
      s.Extends (queued i [(j, call)]) t := by
  rw [queued, List.flatMap_singleton, step]
  by_cases hji : j = i
  · subst hji
    rw [h, if_pos rfl]
    exact ⟨(s.perform a.ids call).1, List.getElem?_set_self (List.getElem?_eq_some_iff.mp h).1,
      extends_perform s a.ids call⟩
  · rw [if_neg hji]
    refine ⟨s, ?_, .refl s⟩
    split
    · exact h
    · rw [← h]
      exact List.getElem?_set_ne hji

theorem exists_extends_run (h : a.statements[i]? = some s) (history : List (Nat × AddCall σ)) :
    ∃ t, (a.run history).statements[i]? = some t ∧ s.Extends (queued i history) t := by
  induction history generalizing a s with
  | nil => exact ⟨s, h, .refl s⟩
  | cons event rest ih =>
      obtain ⟨next, hnext, hstep⟩ := exists_extends_step h event.1 event.2
      obtain ⟨t, ht, hrun⟩ := ih hnext
      rw [← List.singleton_append, queued_append]
      exact ⟨t, ht, hstep.trans hrun⟩

/-! ### Serials -/

/-- The identifiers of a statement that has made more of them come in where they stand, which is of
no account for which there are. -/
theorem flatMap_set_perm {statements : List AddStatement} (h : statements[i]? = some s)
    {next : AddStatement} {new : List String} (hnew : next.generatedIds = s.generatedIds ++ new) :
    ((statements.set i next).flatMap (·.generatedIds)).Perm
      (statements.flatMap (·.generatedIds) ++ new) := by
  induction statements generalizing i with
  | nil => cases h
  | cons first rest ih =>
      cases i with
      | zero =>
          cases h
          rw [List.set_cons_zero, List.flatMap_cons, List.flatMap_cons, hnew, List.append_assoc,
            List.append_assoc]
          exact List.perm_append_comm.append_left _
      | succ i =>
          rw [List.set_cons_succ, List.flatMap_cons, List.flatMap_cons, List.append_assoc]
          exact (ih h).append_left _

/-- All the identifiers that have been made, in some order, have the serials that the source has
given since it had made `made`. -/
structure Numbered (made : Nat) (a : Adding) : Prop where
  serials : (a.generated.map Identity.serialOf).Perm (Identity.serials made a.generated.length)
  serial : a.ids.serial = UInt64.ofNat (made + a.generated.length)

theorem Numbered.step {made : Nat} (h : a.Numbered made) (j : Nat) (call : AddCall σ) :
    (a.step j call).Numbered made := by
  rw [Adding.step]
  split
  · exact h
  · next s hs =>
      obtain ⟨new, hnew, hserials, hserial⟩ := exists_new_perform s h.serial call
      have hperm : (Adding.generated ⟨a.statements.set j (s.perform a.ids call).1,
          (s.perform a.ids call).2⟩).Perm (a.generated ++ new) := flatMap_set_perm hs hnew
      constructor
      · rw [hperm.length_eq, List.length_append, Identity.serials_add, ← hserials]
        refine (hperm.map _).trans ?_
        rw [List.map_append]
        exact h.serials.append_right _
      · rw [hperm.length_eq, List.length_append, ← Nat.add_assoc]
        exact hserial

theorem Numbered.run {made : Nat} (h : a.Numbered made) (history : List (Nat × AddCall σ)) :
    (a.run history).Numbered made := by
  induction history generalizing a with
  | nil => exact h
  | cons event rest ih => exact ih (h.step event.1 event.2)

theorem generated_start (collections : List Collection) (ids : Identity) :
    (start collections ids).generated = [] := by
  rw [generated, start, List.flatMap_map]
  exact List.flatMap_eq_nil_iff.mpr fun _ _ => rfl

theorem numbered_start (collections : List Collection) (ids : Identity) :
    (start collections ids).Numbered ids.serial.toNat := by
  constructor
  · rw [generated_start]
    exact .refl _
  · rw [generated_start]
    exact UInt64.ofNat_toNat.symm

theorem nodup_generated (collections : List Collection) (ids : Identity)
    (history : List (Nat × AddCall σ))
    (h : ((start collections ids).run history).generated.length < UInt64.size) :
    ((start collections ids).run history).generated.Nodup := by
  have hserials := ((numbered_start collections ids).run history).serials
  exact .of_map _ (hserials.nodup_iff.mpr (Identity.nodup_serials h _))

/-- A call for the request makes the identifiers that are missing. -/
theorem statements_step (hs : a.statements[i]? = some s) {call : AddCall σ} {clock : Clock}
    (hcall : call.clock? = some clock) :
    (a.step i call).statements[i]? = some (s.assignIds clock a.ids).1 := by
  rw [step, hs]
  dsimp only
  rw [List.getElem?_set_self (List.getElem?_eq_some_iff.mp hs).1]
  rcases perform_cases s a.ids call with ⟨upsert, hnone, -⟩ | ⟨other, hother, -, heq⟩
  · rw [hcall] at hnone
    cases hnone
  · rw [hcall] at hother
    cases hother
    rw [heq]

/-! ## The main statement -/

theorem sends_of_holds {queued : List Document} (hs : a.statements[i]? = some s)
    (h : s.Holds queued) (clock : Clock) :
    a.Sends i clock s.collection (fill (s.assignIds clock a.ids).1.generatedIds queued)
      (s.assignIds clock a.ids).1.generatedIds := by
  refine ⟨s, hs, ?_, rfl, fun hdocs τ connection server => ?_⟩
  · rw [← (h.assignIds clock a.ids).1]
    rfl
  · rw [run_execute s hdocs]

/-- A statement is given documents, asked for its request or carried out, given more documents and
asked again, with any calls on it and on others in between.  The documents that come without an
identifier, and no others, have got one each; the statement keeps the list of these.  The later
request repeats the earlier one before what has been added.  No two statements have made the same
identifier, and no statement has made one twice. -/
theorem identifiers_given_once (collections : List Collection) (source : Identity)
    (history later : List (Nat × AddCall σ)) {i : Nat} (hi : i < collections.length)
    {call : AddCall σ} {clock : Clock} (hcall : call.clock? = some clock) (laterClock : Clock)
    (hfew : ((start collections source).run (history ++ (i, call) :: later)).generated.length
      < 2 ^ 64) :
    ∃ ids more,
      ((start collections source).run history).Sends i clock collections[i]
        (fill ids (queued i history)) ids ∧
      ids.length = (queued i history).countP lacksId ∧
      (∀ doc ∈ fill ids (queued i history), Assoc.contains doc idField = true) ∧
      ((start collections source).run (history ++ (i, call) :: later)).Sends i laterClock
        collections[i] (fill ids (queued i history) ++ fill more (queued i later)) (ids ++ more) ∧
      more.length = (queued i later).countP lacksId ∧
      ((start collections source).run (history ++ (i, call) :: later)).generated.Nodup := by
  have hstart : (start collections source).statements[i]?
      = some (.ofCollection collections[i]) := by
    rw [start, List.getElem?_map, List.getElem?_eq_getElem hi]
    rfl
  have hempty : (AddStatement.ofCollection collections[i]).Holds [] := ⟨rfl, Nat.le_refl 0⟩
  obtain ⟨s, hs, hextends⟩ := exists_extends_run hstart history
  have hholds : s.Holds (queued i history) := hextends.holds [] hempty
  have hafter : (start collections source).run (history ++ (i, call) :: later)
      = (((start collections source).run history).step i call).run later := by
    rw [run, List.foldl_append]
    rfl
  have hnodup := nodup_generated collections source _ hfew
  rw [hafter] at hnodup ⊢
  generalize (start collections source).run history = w at hs hnodup ⊢
  have hfirst := sends_of_holds hs hholds clock
  rw [hextends.collection] at hfirst
  -- From the call on, the statement is as its request has left it.
  obtain ⟨hdocs, hlength⟩ := hholds.assignIds clock w.ids
  have hcalled := statements_step hs hcall
  have hcollection : (s.assignIds clock w.ids).1.collection = collections[i] := hextends.collection
  generalize (s.assignIds clock w.ids).1 = asked at hfirst hdocs hlength hcalled hcollection
  obtain ⟨t, ht, hlater⟩ := exists_extends_run hcalled later
  have hholds' := hlater.holds _ ⟨hdocs, Nat.le_of_eq hlength⟩
  have hsecond := sends_of_holds ht hholds' laterClock
  rw [hlater.collection, hcollection] at hsecond
  obtain ⟨-, hlength'⟩ := hholds'.assignIds laterClock ((w.step i call).run later).ids
  -- What the statement has made since then comes after what it had made.
  obtain ⟨more, hmore⟩ : ∃ more,
      (t.assignIds laterClock ((w.step i call).run later).ids).1.generatedIds
        = asked.generatedIds ++ more := by
    obtain ⟨new, hnew⟩ := hlater.generated
    exact ⟨new ++ _, by rw [← List.append_assoc, ← hnew]; rfl⟩
  rw [hmore, fill_append hlength] at hsecond
  rw [hmore, List.length_append, List.countP_append, hlength, Nat.add_left_cancel_iff] at hlength'
  exact ⟨asked.generatedIds, more, hfirst, hlength, contains_of_mem_fill hlength, hsecond, hlength',
    hnodup⟩

/-- Two statements in turns, and a clock that goes back. -/
theorem identifiers_given_once_interleaved :
    let session : Session := ⟨⟨8, 0, 19⟩, "test", none⟩
    let collections : List Collection := [session.collection "books", session.collection "films"]
    let source : Identity := ⟨"00ff", 10, 3, 3, 9⟩
    let history : List (Nat × AddCall Unit) :=
      [(0, .add (.members [("v", .null)])), (1, .add (.members [])), (1, .request (.steady 20))]
    let later : List (Nat × AddCall Unit) :=
      [(0, .add (.members [("_id", .null)])), (0, .add (.members [])), (0, .request (.steady 1))]
    let call : AddCall Unit := .request (.steady 5)
    let generated := ["00ff00000014000000000000000b", "00ff00000014000000000000000c",
      "00ff00000014000000000000000a"]
    let last := (start collections source).run (history ++ (0, call) :: later)
    0 < collections.length ∧ call.clock? = some (.steady 5) ∧ last.generated.length < 2 ^ 64 ∧
      last.generated = generated ∧
      ∃ ids more,
        ((start collections source).run history).Sends 0 (.steady 5) (session.collection "books")
          (fill ids (queued 0 history)) ids ∧
        ids.length = (queued 0 history).countP lacksId ∧
        (∀ doc ∈ fill ids (queued 0 history), Assoc.contains doc idField = true) ∧
        last.Sends 0 (.steady 6) (session.collection "books")
          (fill ids (queued 0 history) ++ fill more (queued 0 later)) (ids ++ more) ∧
        more.length = (queued 0 later).countP lacksId ∧ last.generated.Nodup := by
  intro session collections source history later call generated last
  have hgenerated : last.generated = generated := by
    dsimp only [last, generated, history, later, call, collections, session, source]
    rfl
  have hfew : last.generated.length < 2 ^ 64 := by
    rw [hgenerated]
    decide
  exact ⟨by decide, rfl, hfew, hgenerated,
    identifiers_given_once collections source history later (by decide) rfl (.steady 6) hfew⟩

end Adding

end DocStore
