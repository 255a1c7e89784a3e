import DocStore.Proofs.Eval.Overlapping

/-!
# Predicates written out

Main statement: `predicates_agree_with_expansions`.  A filter may write a predicate out with comparisons
under `OR` and `AND`, and lets the same rows through; a negated predicate has the value of `NOT` before
the plain one.

A predicate compares the values of a list with the target, a comparison the target with the value: both
find the same since loose equality is symmetric (`Value.looselyEquals_comm`).  They treat null
differently, so that where the one is null the other may be false, and it is filters that agree.
-/

namespace DocStore

/-! ## Null and truth -/

theorem Value.isTruthy_of_isNull {v : Value} (h : v.isNull = true) : v.isTruthy = false := by
  cases v <;> first | rfl | cases h

namespace Arithmetic

variable {op : BinaryOp} {l r : Value}

theorem isTruthy_disjunction (l r : Value) : (disjunction l r).isTruthy = r.isTruthy := by
  unfold disjunction
  cases hr : r.isTruthy with
  | true => rfl
  | false => cases l.isNull || r.isNull <;> rfl

theorem isTruthy_conjunction (hl : (!l.isNull && !l.isTruthy) = false) :
    (conjunction l r).isTruthy = (l.isTruthy && r.isTruthy) := by
  unfold conjunction
  cases hlnull : l.isNull with
  | true =>
      rw [Value.isTruthy_of_isNull hlnull]
      cases !r.isNull && !r.isTruthy <;> rfl
  | false =>
      rw [hlnull] at hl
      have hl : l.isTruthy = true := by simpa using hl
      cases hrnull : r.isNull with
      | true =>
          rw [Value.isTruthy_of_isNull hrnull, hl]
          rfl
      | false =>
          rw [hl]
          cases r.isTruthy <;> rfl

theorem isTruthy_binary (hop : op.isComparison = true) :
    (binary op l r).isTruthy = (!l.isNull && !r.isNull && compares op l r) := by
  rw [binary, hop, ← Bool.not_or]
  cases l.isNull || r.isNull <;> rfl

/-- What is not null equals what it loosely equals, which is not null either. -/
theorem isTruthy_binary_eq (hl : l.isNull = false) :
    (binary .eq l r).isTruthy = l.looselyEquals r := by
  rw [isTruthy_binary rfl, hl]
  cases r with
  | null => cases l <;> first | rfl | cases hl
  | _ => rfl

theorem isTruthy_binary_notEq (hl : l.isNull = false) (hr : r.isNull = false) :
    (binary .notEq l r).isTruthy = !l.looselyEquals r := by
  rw [isTruthy_binary rfl, hl, hr]
  rfl

end Arithmetic

namespace Expr

open Eval Arithmetic

variable {op : BinaryOp} {row t v w : Value} {values : List Value} {e target low high first l r : Expr}
  {es rest list : List Expr} {form : ListForm} {scope : Scope} {p q answer : Bool}
  {answers : List Bool}

/-! ## Filters of comparisons -/

theorem passes_eq_ok :
    passes (some e) row = .ok answer ↔ ∃ v, e.eval (.row row) = .ok v ∧ v.isTruthy = answer := by
  rw [passes, Outcome.bind_eq_ok]
  constructor
  · rintro ⟨v, hv, h⟩
    cases h
    exact ⟨v, hv, rfl⟩
  · rintro ⟨v, hv, rfl⟩
    exact ⟨v, hv, rfl⟩

theorem passes_or (hl : passes (some l) row = .ok p) (hr : passes (some r) row = .ok q) :
    passes (some (.binary .or l r)) row = .ok (p || q) := by
  obtain ⟨v, hv, rfl⟩ := passes_eq_ok.mp hl
  obtain ⟨w, hw, rfl⟩ := passes_eq_ok.mp hr
  rw [passes, eval, hv, hw]
  show (if v.isTruthy then _ else _ : Except DocError Value) >>= _ = _
  cases v.isTruthy with
  | true => rfl
  | false => exact congrArg Except.ok (isTruthy_disjunction v w)

theorem passes_and (hl : passes (some l) row = .ok p) (hr : passes (some r) row = .ok q) :
    passes (some (.binary .and l r)) row = .ok (p && q) := by
  obtain ⟨v, hv, rfl⟩ := passes_eq_ok.mp hl
  obtain ⟨w, hw, rfl⟩ := passes_eq_ok.mp hr
  rw [passes, eval, hv, hw]
  show (if !v.isNull && !v.isTruthy then _ else _ : Except DocError Value) >>= _ = _
  cases hfalse : !v.isNull && !v.isTruthy with
  | true =>
      obtain ⟨-, hv⟩ := Bool.and_eq_true_iff.mp hfalse
      rw [Bool.not_eq_true'] at hv
      rw [hv]
      rfl
  | false => exact congrArg Except.ok (isTruthy_conjunction hfalse)

theorem passes_comparison (hop : op.isComparison = true) (hl : l.eval (.row row) = .ok v)
    (hr : r.eval (.row row) = .ok w) :
    passes (some (.binary op l r)) row = .ok (Arithmetic.binary op v w).isTruthy := by
  rw [passes, eval, hl, hr]
  cases op <;> first | rfl | cases hop

/-! ## Operands under one operator -/

/-- Operands under one operator, from the left. -/
def joined (op : BinaryOp) (first : Expr) (rest : List Expr) : Expr :=
  rest.foldl (.binary op) first

/-- An operator that combines the answers of two operands combines those of any number of them. -/
theorem passes_joined {combine : Bool → Bool → Bool}
    (hop : ∀ {l r : Expr} {p q : Bool}, passes (some l) row = .ok p → passes (some r) row = .ok q →
      passes (some (.binary op l r)) row = .ok (combine p q))
    (hfirst : passes (some first) row = .ok answer)
    (hrest : rest.mapM (fun e => passes (some e) row) = .ok answers) :
    passes (some (joined op first rest)) row = .ok (answers.foldl combine answer) := by
  induction rest generalizing first answer answers with
  | nil =>
      cases hrest
      exact hfirst
  | cons e rest ih =>
      rw [List.mapM_cons] at hrest
      obtain ⟨q, hq, hrest⟩ := Outcome.bind_eq_ok.mp hrest
      obtain ⟨more, hmore, hrest⟩ := Outcome.bind_eq_ok.mp hrest
      cases hrest
      rw [List.foldl_cons]
      exact ih (hop hfirst hq) hmore

theorem foldl_or (answer : Bool) (answers : List Bool) :
    answers.foldl or answer = (answer :: answers).any id := by
  induction answers generalizing answer with
  | nil => exact (Bool.or_false answer).symm
  | cons q rest ih => rw [List.foldl_cons, ih, List.any_cons, id, Bool.or_assoc]; rfl

theorem foldl_and (answer : Bool) (answers : List Bool) :
    answers.foldl and answer = (answer :: answers).all id := by
  induction answers generalizing answer with
  | nil => exact (Bool.and_true answer).symm
  | cons q rest ih => rw [List.foldl_cons, ih, List.all_cons, id, Bool.and_assoc]; rfl

/-! ## Lists of values -/

theorem evalList_cons_eq_ok :
    evalList (first :: rest) scope = .ok values
      ↔ ∃ v more, first.eval scope = .ok v ∧ evalList rest scope = .ok more ∧ values = v :: more := by
  rw [evalList, Outcome.bind_eq_ok]
  constructor
  · rintro ⟨v, hv, h⟩
    obtain ⟨more, hmore, h⟩ := Outcome.bind_eq_ok.mp h
    cases h
    exact ⟨v, more, hv, hmore, rfl⟩
  · rintro ⟨v, more, hv, hmore, rfl⟩
    exact ⟨v, hv, Outcome.bind_eq_ok.mpr ⟨more, hmore, rfl⟩⟩

theorem evalAnyEqual_eq (hvalues : evalList es scope = .ok values) :
    evalAnyEqual t es scope = .ok (values.any (·.looselyEquals t)) := by
  induction es generalizing values with
  | nil =>
      cases hvalues
      rfl
  | cons e rest ih =>
      obtain ⟨v, more, hv, hmore, rfl⟩ := evalList_cons_eq_ok.mp hvalues
      rw [evalAnyEqual, hv, List.any_cons]
      show (if v.looselyEquals t then _ else _ : Except DocError Bool) = _
      cases v.looselyEquals t with
      | true => rfl
      | false => exact ih hmore

theorem passes_isIn (hform : form ≠ .container) (htarget : target.eval (.row row) = .ok t)
    (hnull : t.isNull = false) (hvalues : evalList es (.row row) = .ok values) (negated : Bool) :
    passes (some (.isIn target es negated form)) row
      = .ok (values.any (·.looselyEquals t) != negated) := by
  refine passes_eq_ok.mpr ⟨truth (values.any (·.looselyEquals t)) negated, ?_, rfl⟩
  rw [eval, htarget]
  show (if t.isNull then _ else _ : Except DocError Value) = _
  rw [hnull]
  cases form with
  | container => exact absurd rfl hform
  | paren | bracket =>
      show (evalAnyEqual t es _ >>= _) = _
      rw [evalAnyEqual_eq hvalues]
      rfl

/-- The target compared with each expression of a list, under one operator. -/
def comparedWithEach (join op : BinaryOp) (target first : Expr) (rest : List Expr) : Expr :=
  joined join (.binary op target first) (rest.map (.binary op target))

theorem mapM_passes_comparison (hop : op.isComparison = true)
    (htarget : target.eval (.row row) = .ok t) (hvalues : evalList es (.row row) = .ok values) :
    (es.map (.binary op target)).mapM (fun e => passes (some e) row)
      = .ok (values.map fun v => (Arithmetic.binary op t v).isTruthy) := by
  induction es generalizing values with
  | nil =>
      cases hvalues
      rfl
  | cons e rest ih =>
      obtain ⟨v, more, hv, hmore, rfl⟩ := evalList_cons_eq_ok.mp hvalues
      rw [List.map_cons, List.mapM_cons, passes_comparison hop htarget hv, ih hmore]
      rfl

theorem passes_comparedWithEach {join : BinaryOp} {combine : Bool → Bool → Bool}
    (hjoin : ∀ {l r : Expr} {p q : Bool}, passes (some l) row = .ok p → passes (some r) row = .ok q →
      passes (some (.binary join l r)) row = .ok (combine p q))
    (hop : op.isComparison = true) (htarget : target.eval (.row row) = .ok t)
    (hfirst : first.eval (.row row) = .ok v) (hrest : evalList rest (.row row) = .ok values) :
    passes (some (comparedWithEach join op target first rest)) row
      = .ok ((values.map fun w => (Arithmetic.binary op t w).isTruthy).foldl combine
          (Arithmetic.binary op t v).isTruthy) :=
  passes_joined hjoin (passes_comparison hop htarget hfirst)
    (mapM_passes_comparison hop htarget hrest)

theorem passes_equalsAny (htarget : target.eval (.row row) = .ok t) (hnull : t.isNull = false)
    (hvalues : evalList (first :: rest) (.row row) = .ok values)
    (hcomm : ∀ v ∈ values, t.looselyEquals v = v.looselyEquals t) :
    passes (some (comparedWithEach .or .eq target first rest)) row
      = .ok (values.any (·.looselyEquals t)) := by
  obtain ⟨v, more, hfirst, hrest, rfl⟩ := evalList_cons_eq_ok.mp hvalues
  have hanswers : (v :: more).map (fun w => (Arithmetic.binary .eq t w).isTruthy)
      = (v :: more).map (·.looselyEquals t) :=
    List.map_congr_left fun w hw => (isTruthy_binary_eq hnull).trans (hcomm w hw)
  rw [passes_comparedWithEach passes_or rfl htarget hfirst hrest, foldl_or]
  refine congrArg Except.ok ?_
  calc ((v :: more).map fun w => (Arithmetic.binary .eq t w).isTruthy).any id
      = ((v :: more).map (·.looselyEquals t)).any id := by rw [hanswers]
    _ = (v :: more).any (·.looselyEquals t) := List.any_map

theorem passes_differsFromAll (htarget : target.eval (.row row) = .ok t) (hnull : t.isNull = false)
    (hvalues : evalList (first :: rest) (.row row) = .ok values)
    (hnulls : ∀ v ∈ values, v.isNull = false)
    (hcomm : ∀ v ∈ values, t.looselyEquals v = v.looselyEquals t) :
    passes (some (comparedWithEach .and .notEq target first rest)) row
      = .ok (!values.any (·.looselyEquals t)) := by
  obtain ⟨v, more, hfirst, hrest, rfl⟩ := evalList_cons_eq_ok.mp hvalues
  have hanswers : (v :: more).map (fun w => (Arithmetic.binary .notEq t w).isTruthy)
      = (v :: more).map (fun w => !w.looselyEquals t) :=
    List.map_congr_left fun w hw =>
      (isTruthy_binary_notEq hnull (hnulls w hw)).trans (congrArg not (hcomm w hw))
  rw [passes_comparedWithEach passes_and rfl htarget hfirst hrest, foldl_and]
  refine congrArg Except.ok ?_
  calc ((v :: more).map fun w => (Arithmetic.binary .notEq t w).isTruthy).all id
      = ((v :: more).map fun w => !w.looselyEquals t).all id := by rw [hanswers]
    _ = (v :: more).all fun w => !w.looselyEquals t := List.all_map
    _ = !(v :: more).any (·.looselyEquals t) := List.not_any_eq_all_not.symm

/-! ## Bounds -/

theorem passes_between (htarget : target.eval (.row row) = .ok t) (hlow : low.eval (.row row) = .ok v)
    (hhigh : high.eval (.row row) = .ok w) :
    passes (some (.between target low high false)) row
      = .ok (!t.isNull && !v.isNull && !w.isNull && within t v w) := by
  rw [passes, eval, htarget, hlow, hhigh]
  show (if t.isNull || v.isNull || w.isNull then _ else _ : Except DocError Value) >>= _ = _
  rw [← Bool.not_or, ← Bool.not_or]
  cases t.isNull || v.isNull || w.isNull with
  | true => rfl
  | false => exact congrArg Except.ok (Bool.bne_false _)

theorem passes_bounds (htarget : target.eval (.row row) = .ok t) (hlow : low.eval (.row row) = .ok v)
    (hhigh : high.eval (.row row) = .ok w) :
    passes (some (.binary .and (.binary .gtEq target low) (.binary .ltEq target high))) row
      = .ok (!t.isNull && !v.isNull && !w.isNull && within t v w) := by
  rw [passes_and (passes_comparison rfl htarget hlow) (passes_comparison rfl htarget hhigh),
    isTruthy_binary rfl, isTruthy_binary rfl, within]
  cases t.isNull <;> cases v.isNull <;> cases w.isNull <;> simp

end Expr

/-! ## Negated predicates -/

namespace Eval

/-- The result for the negated form is what `NOT` makes of that for the plain form; if that fails, so
does it. -/
def Inverts (result : Bool → Except DocError Value) : Prop :=
  result true = (result false).map (Arithmetic.unary .not)

namespace Inverts

variable {α : Type} {result other : Bool → Except DocError Value}

theorem null : Inverts fun _ => .ok .null := rfl

theorem truth (holds : Bool) : Inverts fun negated => .ok (truth holds negated) := by
  cases holds <;> rfl

theorem bind {x : Except DocError α} {result : α → Bool → Except DocError Value}
    (h : ∀ a, Inverts (result a)) : Inverts fun negated => x >>= fun a => result a negated := by
  cases x with
  | error e => rfl
  | ok a => exact h a

theorem ite {c : Bool} (h : Inverts result) (hother : Inverts other) :
    Inverts fun negated => if c then result negated else other negated := by
  cases c with
  | true => exact h
  | false => exact hother

end Inverts

end Eval

namespace Expr

open Eval

variable {scope : Scope}

theorem eval_not (e : Expr) (scope : Scope) :
    (unary .not e).eval scope = (e.eval scope).map (Arithmetic.unary .not) := by
  rw [eval]
  cases e.eval scope <;> rfl

theorem inverts_isIn (target : Expr) (list : List Expr) (form : ListForm) :
    Inverts fun negated => (isIn target list negated form).eval scope := by
  simp only [eval]
  refine .bind fun t => .ite .null ?_
  cases form with
  | container =>
      refine .bind fun v => ?_
      cases v with
      | null => exact .null
      | _ => exact .truth _
  | paren | bracket => exact .bind fun found => .truth found

theorem inverts_overlaps (left right : Expr) :
    Inverts fun negated => (overlaps left right negated).eval scope := by
  simp only [eval]
  exact .bind fun l => .bind fun r => .ite .null (.truth _)

theorem inverts_like (target pattern : Expr) (escape : Option Expr) :
    Inverts fun negated => (like target pattern escape negated).eval scope := by
  simp only [eval]
  exact .bind fun t => .bind fun p => .ite .null (.bind fun e => .bind fun found => .truth found)

theorem inverts_between (target low high : Expr) :
    Inverts fun negated => (between target low high negated).eval scope := by
  simp only [eval]
  exact .bind fun t => .bind fun l => .bind fun h => .ite .null (.truth _)

theorem inverts_isValue (target value : Expr) :
    Inverts fun negated => (isValue target value negated).eval scope := by
  simp only [eval]
  exact .bind fun t => .bind fun v => .truth _

theorem inverts_regexp (target pattern : Expr) :
    Inverts fun negated => (regexp target pattern negated).eval scope := by
  simp only [eval]
  exact .bind fun t => .bind fun p => .ite .null (.bind fun found => .truth found)

/-! ## Agreement -/

/-- The row has an answer to a filter, and the same to the other. -/
def SameAnswer (row : Value) (e e' : Expr) : Prop :=
  ∃ answer, passes (some e) row = .ok answer ∧ passes (some e') row = .ok answer

/-- Where all operands have values, a filter that asks for the target in a list lets the same rows
through as one that compares it with each of the list, if the target is not null.  For `NOT IN` nothing
in the list may be null.  A filter that asks for the target between two bounds lets the same rows
through as one that compares it with both.  In every scope the negated form of a predicate has the value
of `NOT` before the plain form, and fails if that does. -/
theorem predicates_agree_with_expansions :
    (∀ (row : Value) (target first : Expr) (rest : List Expr) (form : ListForm) (t : Value)
        (values : List Value), form ≠ .container →
      row.hasDistinctNames = true →
      (∀ e ∈ target :: first :: rest, e.LiteralsHold fun v => v.hasDistinctNames = true) →
      target.eval (.row row) = .ok t → t.isNull = false →
      evalList (first :: rest) (.row row) = .ok values →
      SameAnswer row (.isIn target (first :: rest) false form)
          (comparedWithEach .or .eq target first rest)
        ∧ ((∀ v ∈ values, v.isNull = false) →
          SameAnswer row (.isIn target (first :: rest) true form)
            (comparedWithEach .and .notEq target first rest)))
      ∧ (∀ (row : Value) (target low high : Expr) (t l h : Value),
        target.eval (.row row) = .ok t → low.eval (.row row) = .ok l →
        high.eval (.row row) = .ok h →
        SameAnswer row (.between target low high false)
          (.binary .and (.binary .gtEq target low) (.binary .ltEq target high)))
      ∧ ∀ scope : Scope,
        (∀ target list form, (isIn target list true form).eval scope
          = (unary .not (.isIn target list false form)).eval scope)
        ∧ (∀ left right, (overlaps left right true).eval scope
          = (unary .not (.overlaps left right false)).eval scope)
        ∧ (∀ target pattern escape, (like target pattern escape true).eval scope
          = (unary .not (.like target pattern escape false)).eval scope)
        ∧ (∀ target low high, (between target low high true).eval scope
          = (unary .not (.between target low high false)).eval scope)
        ∧ (∀ target value, (isValue target value true).eval scope
          = (unary .not (.isValue target value false)).eval scope)
        ∧ ∀ target pattern, (regexp target pattern true).eval scope
          = (unary .not (.regexp target pattern false)).eval scope := by
  refine ⟨?_, ?_, fun scope => ?_⟩
  · intro row target first rest form t values hform hrow hliterals htarget hnull hvalues
    obtain ⟨htargetLiterals, hlistLiterals⟩ := List.forall_mem_cons.mp hliterals
    have hscope : (Scope.row row).Holds fun v => v.hasDistinctNames = true := hrow
    have ht : t.hasDistinctNames = true :=
      closed_hasDistinctNames.eval htargetLiterals hscope htarget
    have hall : ∀ v ∈ values, v.hasDistinctNames = true := by
      rw [evalList_eq_mapM] at hvalues
      exact Outcome.forall_mem_of_mapM
        (fun e he v hv => closed_hasDistinctNames.eval (hlistLiterals e he) hscope hv) hvalues
    have hcomm : ∀ v ∈ values, t.looselyEquals v = v.looselyEquals t :=
      fun v hv => Value.looselyEquals_comm ht (hall v hv)
    have hin := passes_isIn hform htarget hnull hvalues
    refine ⟨⟨_, hin false, ?_⟩, fun hnulls => ⟨_, hin true, ?_⟩⟩
    · rw [Bool.bne_false]
      exact passes_equalsAny htarget hnull hvalues hcomm
    · rw [Bool.bne_true]
      exact passes_differsFromAll htarget hnull hvalues hnulls hcomm
  · intro row target low high t l h htarget hlow hhigh
    exact ⟨_, passes_between htarget hlow hhigh, passes_bounds htarget hlow hhigh⟩
  · simp only [eval_not]
    exact ⟨inverts_isIn, inverts_overlaps, inverts_like, inverts_between, inverts_isValue,
      inverts_regexp⟩

/-- A number among numbers, whatever their kind, and between a bound and none. -/
theorem predicates_agree_with_expansions_numbers :
    let n : Expr := .field (.ofMember "n")
    let row : Value := .obj [("n", .int 2)]
    let one : Expr := .literal (.int 1)
    let two : Expr := .literal (.float 2.0)
    SameAnswer row (.isIn n [one, two] false .paren)
        (.binary .or (.binary .eq n one) (.binary .eq n two))
      ∧ SameAnswer row (.isIn n [one, two] true .bracket)
        (.binary .and (.binary .notEq n one) (.binary .notEq n two))
      ∧ SameAnswer row (.between n one (.literal .null) false)
        (.binary .and (.binary .gtEq n one) (.binary .ltEq n (.literal .null))) := by
  intro n row one two
  obtain ⟨hlist, hbounds, -⟩ := predicates_agree_with_expansions
  have hliterals : ∀ e ∈ [n, one, two], e.LiteralsHold fun v => v.hasDistinctNames = true := by
    simp [n, one, two, LiteralsHold, nodes, Value.hasDistinctNames]
  have hin (form : ListForm) (hform : form ≠ .container) :=
    hlist row n one [two] form (.int 2) [.int 1, .float 2.0] hform rfl hliterals rfl rfl rfl
  exact ⟨(hin .paren (by decide)).1, (hin .bracket (by decide)).2 (by decide),
    hbounds row n one _ _ _ _ rfl rfl rfl⟩

end Expr

end DocStore
