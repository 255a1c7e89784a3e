import DocStore.Proofs.Assoc
import DocStore.Proofs.Client.Calls
import DocStore.Proofs.Expr.Accepted

/-!
# Statements and their plain records

Main statement: `perform_eq_answer`.  Whatever calls have been made on a statement, failed ones among
them and requests in between, the next call answers what the plain record says: the options compiled
earlier are never sent in the place of those set since.

`Statement.Follows` relates a statement to its settings, and each call keeps it.
-/

namespace DocStore

/-! ## The last setting -/

/-- The options after a setting. -/
def Setting.applyTo (o : Options) : Setting → Options
  | .sort keys => { o with sort := keys }
  | .limit rows => { o with limit := some rows }
  | .offset rows => { o with offset := some rows }
  | .window rows first => { o with limit := some rows, offset := some first }
  | .columns shown => { o with columns := shown }
  | .groupBy keys => { o with groupBy := keys }
  | .having condition => { o with having := some condition }
  | .lock mode contention => { o with lockMode := mode, lockContention := contention }
  | .operations _ | .values _ | .nothing => o

namespace Settings

variable {settings : Settings} {setting : Setting} {α : Type}

theorem last?_append (value? : Setting → Option α) :
    last? value? (settings ++ [setting]) = (value? setting).or (last? value? settings) := by
  rw [last?, List.reverse_append, List.reverse_singleton, List.singleton_append,
    List.findSome?_cons]
  cases value? setting <;> rfl

theorem options_append (filter : Option Expr) :
    options filter (settings ++ [setting]) = setting.applyTo (options filter settings) := by
  simp only [options, last?_append]
  cases setting <;> rfl

theorem operations_append :
    operations (settings ++ [setting]) = operations settings ++ setting.added := by
  rw [operations, List.flatMap_append, List.flatMap_singleton]
  rfl

theorem value?_append (name : String) :
    value? (settings ++ [setting]) name
      = (Assoc.get? setting.bound.reverse name).or (value? settings name) := by
  rw [value?, List.flatMap_append, List.flatMap_singleton, List.reverse_append, Assoc.get?_append]
  rfl

end Settings

/-! ## Grouping -/

namespace Statement

theorem readText_eq_ok_iff {α : Type} {outcome : Except ParseError α} {a : α} :
    readText outcome = .ok a ↔ outcome = .ok a := by
  cases outcome <;> simp [readText, Except.mapError]

/-- Any text there is to group by gives an expression. -/
theorem ne_nil_of_readAll {clauses : List String} {es : List Expr}
    (h : readAll Expr.parseList clauses = .ok es) (hne : clauses ≠ []) : es ≠ [] := by
  cases clauses with
  | nil => exact absurd rfl hne
  | cons clause rest =>
      rw [readAll, List.mapM_cons] at h
      obtain ⟨lists, hlists, h⟩ := Outcome.bind_eq_ok.mp h
      obtain ⟨first, hfirst, hlists⟩ := Outcome.bind_eq_ok.mp hlists
      obtain ⟨more, -, hlists⟩ := Outcome.bind_eq_ok.mp hlists
      cases hlists
      cases h
      rw [List.flatten_cons]
      exact List.append_ne_nil_of_left_ne_nil
        (Expr.ne_nil_of_parseList (readText_eq_ok_iff.mp hfirst)) _

theorem filterMap_id_eq_nil_iff (entries : List (Option String)) :
    entries.filterMap id = [] ↔ entries.all Option.isNone = true := by
  simp [List.filterMap_eq_nil_iff]

end Statement

/-! ## Bindings -/

namespace Bindings

theorem get?_values_set (b : Bindings) (name : String) (value : Value) (key : String) :
    Assoc.get? (b.set name value).values key
      = (Assoc.get? [(normalize name, value)] key).or (Assoc.get? b.values key) :=
  Assoc.get?_insertAll b.values [(normalize name, value)] key

theorem values_ofDocument (members : Document) :
    (ofDocument members).values
      = Assoc.insertAll [] (members.map fun member => (normalize member.1, member.2)) := by
  rw [ofDocument, Assoc.insertAll, List.foldl_map]
  suffices ∀ b : Bindings, (members.foldl (fun b m => b.set m.1 m.2) b).values
      = members.foldl (fun all m => Assoc.insert all (normalize m.1) m.2) b.values from this {}
  intro b
  induction members generalizing b with
  | nil => rfl
  | cons member rest ih => exact ih (b.set member.1 member.2)

/-- What a bag binds a name to comes before what was bound earlier. -/
theorem get?_values_extend (b : Bindings) (members : Document) (key : String) :
    Assoc.get? (b.extend (ofDocument members)).values key
      = (Assoc.get? (members.map fun member => (normalize member.1, member.2)).reverse key).or
        (Assoc.get? b.values key) := by
  have hnodup : (Assoc.keys (ofDocument members).values).Nodup := by
    rw [values_ofDocument]
    exact Assoc.nodup_keys_insertAll _ List.nodup_nil
  rw [extend, Assoc.get?_insertAll, Assoc.get?_reverse hnodup, values_ofDocument,
    Assoc.get?_insertAll]
  congr 1
  exact Option.or_none

end Bindings

/-! ## A statement follows its settings -/

namespace Statement

variable {purpose : Purpose} {collection : Collection} {filter : Option Expr} {settings : Settings}
  {s : Statement purpose}

/-- The statement is what the settings make of a filter.  Options that it has compiled are those that
it has. -/
structure Follows (collection : Collection) (filter : Option Expr) (settings : Settings)
    (s : Statement purpose) : Prop where
  collection : s.collection = collection
  options : s.options = settings.options filter
  compiled : ∀ o, s.compiled = some o → o = s.options
  values : ∀ name, Assoc.get? s.bindings.values name = settings.value? name
  paired : s.pairedWindow = settings.any Setting.isWindow
  operations : s.operations = settings.operations

namespace Follows

theorem ofFilter (collection : Collection) (filter : Option Expr) :
    (Statement.ofFilter collection filter : Statement purpose).Follows collection filter [] where
  collection := rfl
  options := rfl
  compiled _ h := nomatch h
  values _ := rfl
  paired := rfl
  operations := rfl

/-! ### Calls that succeed -/

/-- A statement to which one setting has been added. -/
theorem append {next : Statement purpose} {setting : Setting}
    (h : s.Follows collection filter settings) (hcollection : next.collection = s.collection)
    (hoptions : next.options = setting.applyTo s.options)
    (hcompiled : ∀ o, next.compiled = some o → o = next.options)
    (hvalues : ∀ name, Assoc.get? next.bindings.values name
      = (Assoc.get? setting.bound.reverse name).or (Assoc.get? s.bindings.values name))
    (hpaired : next.pairedWindow = (s.pairedWindow || setting.isWindow))
    (hoperations : next.operations = s.operations ++ setting.added) :
    next.Follows collection filter (settings ++ [setting]) where
  collection := hcollection.trans h.collection
  options := by rw [hoptions, Settings.options_append, h.options]
  compiled := hcompiled
  values name := by rw [hvalues, Settings.value?_append, h.values]
  paired := by
    rw [hpaired, List.any_append, ← h.paired, List.any_cons, List.any_nil, Bool.or_false]
  operations := by rw [hoperations, Settings.operations_append, h.operations]

/-- Options have been set, by which the statement has to compile them again. -/
theorem set {f : Options → Options} {setting : Setting} (h : s.Follows collection filter settings)
    (hoptions : f s.options = setting.applyTo s.options) (hbound : setting.bound = [])
    (hpaired : setting.isWindow = false) (hadded : setting.added = []) :
    (s.set f).Follows collection filter (settings ++ [setting]) := by
  refine h.append rfl hoptions nofun (fun name => ?_) ?_ ?_
  · rw [hbound]
    rfl
  · rw [hpaired, Bool.or_false]
    rfl
  · rw [hadded, List.append_nil]
    rfl

theorem nothing (h : s.Follows collection filter settings) :
    s.Follows collection filter (settings ++ [.nothing]) :=
  h.append rfl rfl h.compiled (fun _ => rfl) (Bool.or_false _).symm (List.append_nil _).symm

theorem queue {s : Statement .modify} (more : List Operation)
    (h : s.Follows collection filter settings) :
    (s.queue more).Follows collection filter (settings ++ [.operations more]) :=
  h.append rfl rfl h.compiled (fun _ => rfl) (Bool.or_false _).symm rfl

theorem bound {bindings : Bindings} {bound : List (String × Value)}
    (h : s.Follows collection filter settings)
    (hvalues : ∀ name, Assoc.get? bindings.values name
      = (Assoc.get? bound.reverse name).or (Assoc.get? s.bindings.values name)) :
    ({ s with bindings } : Statement purpose).Follows collection filter
      (settings ++ [.values bound]) :=
  h.append rfl rfl h.compiled hvalues (Bool.or_false _).symm (List.append_nil _).symm

theorem bind (h : s.Follows collection filter settings) (name : String) (value : Value) :
    (s.bind name value).Follows collection filter
      (settings ++ [.values [(Bindings.normalize name, value)]]) :=
  h.bound (Bindings.get?_values_set s.bindings name value)

end Follows

/-! ### What a call makes of a statement and what it sets -/

/-- A call fails alike on a statement and on its settings, or makes a statement that follows what it
sets. -/
inductive Agrees (collection : Collection) (filter : Option Expr) (settings : Settings) :
    Except DocError (Statement purpose) → Except DocError Setting → Prop
  | ok {next : Statement purpose} {setting : Setting}
      (h : next.Follows collection filter (settings ++ [setting])) :
      Agrees collection filter settings (.ok next) (.ok setting)
  | error (e : DocError) : Agrees collection filter settings (.error e) (.error e)

namespace Agrees

variable {α : Type}

theorem bind {x : Except DocError α} {f : α → Except DocError (Statement purpose)}
    {g : α → Except DocError Setting}
    (h : ∀ a, x = .ok a → Agrees collection filter settings (f a) (g a)) :
    Agrees collection filter settings (x >>= f) (x >>= g) := by
  cases x with
  | error e => exact .error e
  | ok a => exact h a rfl

theorem groupBy {s : Statement .find} (h : s.Follows collection filter settings)
    (entries : List (Option String)) :
    Agrees collection filter settings (s.groupBy entries)
      (Call.setting settings (.groupBy entries)) := by
  rw [Call.setting]
  by_cases hnone : entries.all Option.isNone = true
  · rw [if_pos hnone, Statement.groupBy, (filterMap_id_eq_nil_iff entries).mpr hnone]
    exact .ok h.nothing
  · rw [if_neg hnone]
    refine bind fun keys hkeys => ?_
    -- The statement asks whether anything has been read, the record whether there was any text.
    have hne := ne_nil_of_readAll hkeys (mt (filterMap_id_eq_nil_iff entries).mp hnone)
    rw [if_neg (mt List.isEmpty_iff.mp hne)]
    exact .ok (h.set rfl rfl rfl rfl)

/-- Any call but one for the request. -/
theorem settle {outcome : Except DocError (Statement purpose)} {result : Except DocError Setting}
    (h : s.Follows collection filter settings)
    (hagrees : Agrees collection filter settings outcome result) :
    (s.settle outcome).1 = result.map (fun _ => none) ∧
      (s.settle outcome).2.Follows collection filter (settings ++ result.toOption.toList) := by
  cases hagrees with
  | ok hnext => exact ⟨rfl, hnext⟩
  | error e =>
      refine ⟨rfl, ?_⟩
      rw [Except.toOption, Option.toList_none, List.append_nil]
      exact h

theorem bindAll (h : s.Follows collection filter settings) (bag : Source) :
    Agrees collection filter settings (s.bindAll bag)
      (Call.setting settings (.bindAll bag : Call purpose)) := by
  rw [Statement.bindAll, Bindings.ofSource, Call.setting]
  cases bag.read "Binding bag" with
  | error e => exact .error e
  | ok members => exact .ok (h.bound (Bindings.get?_values_extend s.bindings members))

end Agrees

/-! ### Requests -/

theorem compile_fst (h : s.Follows collection filter settings) :
    s.compile.1 = settings.options filter := by
  rw [compile]
  cases hcompiled : s.compiled with
  | none => exact h.options
  | some o => exact (h.compiled o hcompiled).trans h.options

theorem Follows.compile (h : s.Follows collection filter settings) :
    s.compile.2.Follows collection filter settings := by
  rw [Statement.compile]
  cases hcompiled : s.compiled with
  | none =>
      refine { h with compiled := ?_ }
      rintro o ⟨⟩
      rfl
  | some o => exact h

theorem Follows.substitute_eq (h : s.Follows collection filter settings) :
    s.bindings.substitute = settings.substitute := by
  funext e
  cases e with
  | placeholder name position =>
      rw [Bindings.substitute, h.values name]
      rfl
  | _ => rfl

/-- The request is made of the compiled options, and they are those that the settings give. -/
theorem Follows.request (h : s.Follows collection filter settings) :
    s.request.1 = Settings.request? purpose collection filter settings ∧
      s.request.2.Follows collection filter settings := by
  have hbound : s.bindings.applyOptions s.compile.1
      = (settings.options filter).mapExprs settings.substitute := by
    rw [compile_fst h, Bindings.applyOptions, h.substitute_eq]
  cases purpose with
  | find =>
      refine ⟨?_, h.compile⟩
      rw [Statement.request, findRequest, boundOptions, Settings.request?, ← h.collection, ← hbound]
  | modify =>
      refine ⟨?_, h.compile⟩
      rw [Statement.request, modifyRequest, boundOptions, Settings.request?, ← h.collection,
        ← hbound, ← h.operations, ← h.substitute_eq]
      rfl
  | remove =>
      refine ⟨?_, h.compile⟩
      rw [Statement.request, removeRequest, boundOptions, Settings.request?, ← h.collection,
        ← hbound]

/-! ### Sequences of calls -/

theorem Follows.perform (h : s.Follows collection filter settings) (call : Call purpose) :
    (s.perform call).1 = settings.answer collection filter call ∧
      (s.perform call).2.Follows collection filter (call.extend settings) := by
  cases call with
  | sort clauses =>
      exact Agrees.settle h (.bind fun keys _ => .ok (h.set rfl rfl rfl rfl))
  | limit rows =>
      exact Agrees.settle h (.bind fun n _ => .ok (h.set rfl rfl rfl rfl))
  | offset rows =>
      refine Agrees.settle h ?_
      rw [Statement.offset, Call.setting, h.paired]
      split
      · exact .error pairedOffset
      · exact .ok (h.set rfl rfl rfl rfl)
  | limitOffset writes rows first =>
      refine Agrees.settle h (.bind fun n _ => .ok ?_)
      exact h.append rfl rfl nofun (fun _ => rfl) (Bool.or_true _).symm (List.append_nil _).symm
  | fields clauses =>
      exact Agrees.settle h (.bind fun columns _ => .ok (h.set rfl rfl rfl rfl))
  | groupBy entries => exact Agrees.settle h (.groupBy h entries)
  | having condition =>
      exact Agrees.settle h (.bind fun e _ => .ok (h.set rfl rfl rfl rfl))
  | lock mode contention =>
      exact Agrees.settle h (.ok (h.set rfl rfl rfl rfl))
  | setValue path value =>
      exact Agrees.settle h (.bind fun place _ => .ok (h.queue _))
  | setExpr path value =>
      exact Agrees.settle h (.bind fun place _ => .bind fun e _ => .ok (h.queue _))
  | change path value =>
      exact Agrees.settle h (.bind fun place _ => .ok (h.queue _))
  | unset paths =>
      exact Agrees.settle h (.bind fun places _ => .ok (h.queue _))
  | patch source =>
      refine Agrees.settle h (.bind fun doc _ => ?_)
      split
      · exact .error (missing "document")
      · exact .ok (h.queue _)
  | arrayInsert path value =>
      refine Agrees.settle h (.bind fun place _ => ?_)
      split
      · exact .error (notAnIndex path)
      · exact .ok (h.queue _)
  | arrayAppend path value =>
      exact Agrees.settle h (.bind fun place _ => .ok (h.queue _))
  | bind name value => exact Agrees.settle h (.ok (h.bind name value))
  | bindAll bag => exact Agrees.settle h (.bindAll h bag)
  | request =>
      obtain ⟨hanswer, hnext⟩ := h.request
      exact ⟨congrArg (Except.map some) hanswer, hnext.nothing⟩

theorem Follows.performAll (h : s.Follows collection filter settings)
    (calls : List (Call purpose)) :
    (s.performAll calls).Follows collection filter (calls.foldl Call.extend settings) := by
  induction calls generalizing s settings with
  | nil => exact h
  | cons call rest ih => exact ih (h.perform call).2

end Statement

/-! ## The offset after a paired window -/

theorem Statement.requireRows_eq_ok_iff {rows : Int64} {n : UInt64} :
    requireRows rows = .ok n ↔ 0 < rows.toInt ∧ n = UInt64.ofNat rows.toInt.toNat := by
  unfold requireRows
  split <;> grind

namespace Call

open Statement

variable {purpose : Purpose} {settings : Settings}

/-- Limit and offset are set at once by one call only. -/
theorem eq_limitOffset_of_setting {call : Call purpose} {rows : UInt64} {first : Int64}
    (h : call.setting settings = .ok (.window rows first)) :
    ∃ writes rows, call = .limitOffset writes rows first ∧ 0 < rows.toInt := by
  cases call with
  | limitOffset writes rows first =>
      obtain ⟨n, hn, hsetting⟩ := Outcome.bind_eq_ok.mp h
      cases hsetting
      exact ⟨writes, rows, rfl, (requireRows_eq_ok_iff.mp hn).1⟩
  | _ => grind [Call.setting, Outcome.bind_eq_ok, Outcome.pure_eq_ok, Outcome.throw_eq_error]

theorem setting_limitOffset {writes : purpose ≠ .find} {rows first : Int64} (h : 0 < rows.toInt) :
    (Call.limitOffset writes rows first).setting settings
      = .ok (.window (UInt64.ofNat rows.toInt.toNat) first) := by
  rw [setting, requireRows_eq_ok_iff.mpr ⟨h, rfl⟩]
  rfl

theorem any_isWindow_extend (call : Call purpose) :
    (call.extend settings).any Setting.isWindow = true ↔
      settings.any Setting.isWindow = true ∨
        ∃ writes rows first, call = .limitOffset writes rows first ∧ 0 < rows.toInt := by
  rw [extend, List.any_append, Bool.or_eq_true]
  refine or_congr_right ⟨?_, ?_⟩
  · intro h
    cases hsetting : call.setting settings with
    | error e =>
        rw [hsetting] at h
        cases h
    | ok setting =>
        rw [hsetting] at h
        cases setting with
        | window rows first =>
            obtain ⟨writes, rows, hcall, hrows⟩ := eq_limitOffset_of_setting hsetting
            exact ⟨writes, rows, first, hcall, hrows⟩
        | _ => cases h
  · rintro ⟨writes, rows, first, rfl, hrows⟩
    rw [setting_limitOffset hrows]
    rfl

theorem any_isWindow_foldl (calls : List (Call purpose)) :
    (calls.foldl extend settings).any Setting.isWindow = true ↔
      settings.any Setting.isWindow = true ∨
        ∃ writes rows first, .limitOffset writes rows first ∈ calls ∧ 0 < rows.toInt := by
  induction calls generalizing settings with
  | nil => simp
  | cons call rest ih =>
      rw [List.foldl_cons, ih, any_isWindow_extend, or_assoc]
      refine or_congr_right ⟨?_, ?_⟩
      · rintro (⟨writes, rows, first, rfl, hrows⟩ | ⟨writes, rows, first, hmem, hrows⟩)
        · exact ⟨writes, rows, first, List.mem_cons_self, hrows⟩
        · exact ⟨writes, rows, first, List.mem_cons_of_mem call hmem, hrows⟩
      · rintro ⟨writes, rows, first, hmem, hrows⟩
        obtain rfl | hmem := List.mem_cons.mp hmem
        · exact .inl ⟨writes, rows, first, rfl, hrows⟩
        · exact .inr ⟨writes, rows, first, hmem, hrows⟩

end Call

namespace Settings

variable {purpose : Purpose} {collection : Collection} {filter : Option Expr} {settings : Settings}

theorem answer_offset_eq_error_iff {rows : Int64} :
    (∃ e, settings.answer collection filter (.offset rows : Call purpose) = .error e) ↔
      settings.any Setting.isWindow = true := by
  rw [answer, Call.setting]
  · split <;> simp [Except.map, *]
  · nofun

theorem answer_limitOffset_eq_ok_iff {writes : purpose ≠ .find} {rows first : Int64} :
    settings.answer collection filter (.limitOffset writes rows first) = .ok none ↔
      0 < rows.toInt := by
  constructor
  · intro h
    by_contra hrows
    rw [answer, Call.setting, Statement.requireRows, if_pos (Int.not_lt.mp hrows)] at h
    · cases h
    · nofun
  · intro hrows
    rw [answer, Call.setting_limitOffset hrows]
    · rfl
    · nofun

end Settings

/-! ## The statement and its record -/

namespace Statement

variable {purpose : Purpose}

theorem perform_eq (collection : Collection) (filter : Option Expr) (earlier : List (Call purpose))
    (call : Call purpose) :
    ((performAll (ofFilter collection filter) earlier).perform call).1
      = (settled earlier).answer collection filter call :=
  (((Follows.ofFilter collection filter).performAll earlier).perform call).1

theorem offset_fails_iff (collection : Collection) (filter : Option Expr)
    (earlier : List (Call purpose)) (rows : Int64) :
    (∃ e, ((performAll (ofFilter collection filter) earlier).perform (.offset rows)).1 = .error e) ↔
      ∃ before after writes limit first,
        earlier = before ++ .limitOffset writes limit first :: after ∧
        ((performAll (ofFilter collection filter) before).perform
          (.limitOffset writes limit first)).1 = .ok none := by
  simp only [perform_eq, Settings.answer_offset_eq_error_iff, Settings.answer_limitOffset_eq_ok_iff]
  rw [settled, Call.any_isWindow_foldl]
  constructor
  · rintro (h | ⟨writes, limit, first, hmem, hlimit⟩)
    · cases h
    · obtain ⟨before, after, h⟩ := List.append_of_mem hmem
      exact ⟨before, after, writes, limit, first, h, hlimit⟩
  · rintro ⟨before, after, writes, limit, first, rfl, hlimit⟩
    exact .inr ⟨writes, limit, first, List.mem_append_right _ List.mem_cons_self, hlimit⟩

/-- Whatever calls have been made on a statement, the next one answers what its settings say, which
keep nothing compiled.  The offset is refused just if limit and offset have been set by one call that
succeeded. -/
theorem perform_eq_answer (collection : Collection) (filter : Option Expr)
    (earlier : List (Call purpose)) (call : Call purpose) :
    ((performAll (ofFilter collection filter) earlier).perform call).1
        = (settled earlier).answer collection filter call ∧
      ∀ rows,
        (∃ e, ((performAll (ofFilter collection filter) earlier).perform (.offset rows)).1
            = .error e) ↔
          ∃ before after writes limit first,
            earlier = before ++ .limitOffset writes limit first :: after ∧
            ((performAll (ofFilter collection filter) before).perform
              (.limitOffset writes limit first)).1 = .ok none :=
  ⟨perform_eq collection filter earlier call, offset_fails_iff collection filter earlier⟩

end Statement

end DocStore
