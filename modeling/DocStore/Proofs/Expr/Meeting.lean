import DocStore.Proofs.Expr.Numbering
import DocStore.Proofs.Expr.Passing
import DocStore.Proofs.Expr.Tree
import Mathlib.Data.List.Induction

/-!
# Placeholders are numbered as they come

A parser threads the names of the placeholders it has met through the whole descent and numbers each
placeholder by the place of its name among them.  Main statement: `numbered_of_run`.  When a text has
been read, the names are those of the placeholders in the result, in the order in which they first
occur there, and every placeholder has the place of its name for its number.

`Meets before p after` carries it: a cursor that has met `before` has met `after` once `p` has run.
Parsers that only pass tokens meet nothing (`Passes`), and the parsers of the grammar meet the
placeholders of the tree they give (`Adds`), in reading order.
-/

namespace DocStore

open DocStore.Parser

/-! ## The placeholders of a tree -/

namespace Expr

/-- The placeholders of a tree, in reading order. -/
def placeholders (e : Expr) : List Expr :=
  e.nodes.filter fun node => node.placeholderName?.isSome

variable {e : Expr}

/-- Any other node has the placeholders of its children. -/
theorem placeholders_of_none (h : e.placeholderName? = none) :
    e.placeholders = e.children.flatMap placeholders := by
  rw [placeholders, nodes_eq_cons, List.filter_cons_of_neg (by simp [h]), List.filter_flatMap]
  rfl

theorem mem_placeholders {name : String} {position : UInt32} :
    .placeholder name position ∈ e.placeholders ↔ .placeholder name position ∈ e.nodes := by
  simp [placeholders, placeholderName?]

theorem filterMap_placeholders (e : Expr) :
    e.placeholders.filterMap placeholderName? = e.nodes.filterMap placeholderName? := by
  rw [placeholders, List.filterMap_filter]
  refine List.filterMap_congr fun node _ => ?_
  cases node.placeholderName? <;> rfl

theorem firstOccurrences_eq_eraseDups (names : List String) :
    firstOccurrences names = names.eraseDups := by
  induction names using List.reverseRecOn with
  | nil => rfl
  | append_singleton names name ih =>
      rw [firstOccurrences] at ih ⊢
      rw [List.foldl_append, ih, List.eraseDups_append, List.foldl_cons, List.foldl_nil]
      by_cases hmem : name ∈ names
      · simp [hmem, List.removeAll]
      · simp [hmem, List.removeAll, List.eraseDups_cons]

end Expr

/-! ## Meeting names -/

variable {names : List String} {name : String} {nodes : List Expr}

theorem length_meet_le (names : List String) (name : String) :
    (meet names name).length ≤ names.length + 1 := by
  rw [meet]
  split
  · exact Nat.le_succ _
  · simp

theorem nodup_meet (name : String) (h : names.Nodup) : (meet names name).Nodup := by
  by_cases hmem : name ∈ names
  · rwa [meet_of_mem hmem]
  · rw [meet_of_not_mem hmem, List.nodup_append]
    refine ⟨h, by simp, ?_⟩
    rintro other hother _ hname rfl
    rw [List.mem_singleton.mp hname] at hother
    exact hmem hother

/-- No name is met twice. -/
theorem nodup_namesAfter (nodes : List Expr) (h : names.Nodup) : (namesAfter names nodes).Nodup := by
  rw [namesAfter]
  induction nodes.filterMap Expr.placeholderName? generalizing names with
  | nil => exact h
  | cons name rest ih => exact ih (nodup_meet name h)

theorem idxOf?_of_mem (h : name ∈ names) : names.idxOf? name = some (names.idxOf name) := by
  obtain ⟨place, hplace⟩ := Option.isSome_iff_exists.mp (List.isSome_idxOf?.mpr h)
  rw [List.idxOf_eq_getD_idxOf?, hplace, Option.getD_some]

/-- In the end every placeholder has the place of its name, since names keep their places. -/
theorem NumberedFrom.position_eq (h : NumberedFrom names nodes) {position : UInt32}
    (hmem : .placeholder name position ∈ nodes) :
    name ∈ namesAfter names nodes
      ∧ position = UInt32.ofNat ((namesAfter names nodes).idxOf name) := by
  induction nodes generalizing names with
  | nil => cases hmem
  | cons node rest ih =>
      obtain ⟨hnode, hrest⟩ := h
      rw [namesAfter_cons]
      rcases List.mem_cons.mp hmem with rfl | hmem
      · obtain ⟨later, hlater⟩ := prefix_namesAfter (meet names name) rest
        rw [namesAfter_placeholder, ← hlater, List.idxOf_append_of_mem mem_meet]
        exact ⟨List.mem_append_left later mem_meet, hnode name position rfl⟩
      · exact ih hrest hmem

/-- A name gets the place that it has once it has been met. -/
theorem Parser.placeOf_eq (name : String) (c : Cursor) :
    placeOf name c
      = .ok (UInt32.ofNat ((meet c.names name).idxOf name), { c with names := meet c.names name }) := by
  refine bind_eq_ok.mpr ⟨c, c, rfl, ?_⟩
  by_cases hmem : name ∈ c.names
  · rw [idxOf?_of_mem hmem, meet_of_mem hmem]
    rfl
  · have hlast : (c.names ++ [name]).idxOf name = c.names.length := by
      rw [List.idxOf_append_of_notMem hmem]
      simp
    rw [List.idxOf?_eq_none_iff.mpr hmem, meet_of_not_mem hmem, hlast]
    rfl

/-! ## What a cursor has met -/

/-- In a source of `total` tokens, the cursor has met these placeholders, and they have the places of
their names for numbers.  Each new name has taken a token. -/
structure Cursor.HasMet (total : Nat) (met : List Expr) (c : Cursor) : Prop where
  names : c.names = namesAfter [] met
  numbered : NumberedFrom [] met
  few : c.names.length + c.rest.length ≤ total

theorem Cursor.Moved.hasMet {c c' : Cursor} {total : Nat} {met : List Expr} (h : c.Moved c')
    (hc : c.HasMet total met) : c'.HasMet total met where
  names := h.names.trans hc.names
  numbered := hc.numbered
  few := by
    rw [h.names]
    exact Nat.le_trans (Nat.add_le_add_left h.rest _) hc.few

/-- The token of a name is passed, and the name is met. -/
theorem Cursor.HasMet.placeholder {total position : Nat} {met : List Expr} {token : Token}
    {rest : List Token} (hc : HasMet total met ⟨token :: rest, position, names⟩) (name : String) :
    HasMet total (met ++ [.placeholder name (UInt32.ofNat ((meet names name).idxOf name))])
      ⟨rest, position + 1, meet names name⟩ where
  names := by
    have hnames : names = namesAfter [] met := hc.names
    rw [namesAfter_append, ← hnames]
    rfl
  numbered := by
    have hnames : names = namesAfter [] met := hc.names
    refine numberedFrom_append.mpr ⟨hc.numbered, ?_, trivial⟩
    rintro _ _ heq
    cases heq
    rw [← hnames]
  few := by
    have hfew : names.length + (rest.length + 1) ≤ total := hc.few
    have hmeet := length_meet_le names name
    show (meet names name).length + rest.length ≤ total
    omega

/-- If the placeholders `before` have been met, then after whatever the parser gives it is those of
`after`. -/
def Meets {α : Type} (before : List Expr) (p : Parser α) (after : α → List Expr) : Prop :=
  ∀ total c, c.HasMet total before → ∀ a c', p c = .ok (a, c') → c'.HasMet total (after a)

/-- Whatever has been met before, the placeholders of what the parser gives have been met after it. -/
def Adds {α : Type} (p : Parser α) (added : α → List Expr) : Prop :=
  ∀ before, Meets before p fun a => before ++ added a

variable {α β : Type} {p q : Parser α} {f : α → Parser β} {before : List Expr}
  {after mid added : α → List Expr} {last : β → List Expr}

namespace Meets

theorem pure {a : α} (h : before = after a) : Meets before (Pure.pure a) after := by
  intro total c hc a' c' heq
  cases heq
  rwa [← h]

theorem bind (hp : Meets before p mid) (hf : ∀ a, Meets (mid a) (f a) last) :
    Meets before (p >>= f) last := by
  intro total c hc b c'' heq
  obtain ⟨a, c', hp', hf'⟩ := bind_eq_ok.mp heq
  exact hf a total c' (hp total c hc a c' hp') b c'' hf'

theorem ite {condition : Prop} [Decidable condition] (hp : Meets before p after)
    (hq : Meets before q after) : Meets before (if condition then p else q) after := by
  split
  · exact hp
  · exact hq

/-- The same placeholders in other words. -/
theorem mono {after' : α → List Expr} (hp : Meets before p after)
    (h : ∀ a, after a = after' a) : Meets before p after' := by
  obtain rfl := funext h
  exact hp

theorem map {g : α → β} (hp : Meets before p after) (h : ∀ a, after a = last (g a)) :
    Meets before (g <$> p) last :=
  hp.bind fun a => .pure (h a)

end Meets

namespace Passes

/-- Passing tokens leaves what has been met as it is. -/
theorem andThen (hp : Passes p) (hf : ∀ a, Meets before (f a) last) :
    Meets before (p >>= f) last := by
  have hkeeps : Meets before p fun _ => before := fun _ c hc a c' heq => (hp c a c' heq).hasMet hc
  exact hkeeps.bind hf

/-- A parser that stops with an error meets anything. -/
theorem failing (error : Nat → ParseError) :
    Meets before (Parser.failHere error : Parser α) after :=
  position.andThen fun _ => fun _ _ _ _ _ heq => nomatch heq

end Passes

namespace Meets

theorem ahead {f : Option Token → Parser α} (hnone : Meets before (f none) after)
    (hsome : ∀ token, Meets before (f (some token)) after) :
    Meets before (Parser.peek? >>= f) after := by
  refine Passes.peek?.andThen fun token? => ?_
  cases token? with
  | none => exact hnone
  | some token => exact hsome token

theorem ifWord {word : String} (hp : Meets before p after) (hq : Meets before q after) :
    Meets before (do if ← Parser.acceptWord word then p else q) after :=
  (Passes.acceptWord word).andThen fun _ => ite hp hq

theorem unexpected : Meets before (Parser.unexpected : Parser α) after :=
  ahead (Passes.failing _) fun _ => Passes.failing _

end Meets

/-! ## The parsers of the grammar -/

namespace Adds

variable {sub : Sub} {target : Expr} {negated : Bool}

/-- The placeholders of a list, one expression after the other. -/
abbrev ofList (es : List Expr) : List Expr := es.flatMap Expr.placeholders

theorem ofList_singleton (e : Expr) : ofList [e] = e.placeholders := List.flatMap_singleton ..

/-- A node that is no placeholder has been met when its children have. -/
theorem parent {met : List Expr} {e : Expr} (hnone : e.placeholderName? = none)
    (hmet : met = before ++ ofList e.children) :
    Meets met (Pure.pure e) fun e => before ++ e.placeholders :=
  .pure (by rw [hmet, Expr.placeholders_of_none hnone])

theorem leaf {e : Expr} (hnone : e.placeholderName? = none) (hleaf : e.children = []) :
    Meets before (Pure.pure e) fun e => before ++ e.placeholders :=
  parent hnone (by simp [hleaf])

theorem further (hp : Adds p added) (bound : Nat) :
    Adds (commaSeparated.further p bound) fun items => items.flatMap added := by
  intro before
  induction bound generalizing before with
  | zero => exact .pure (by simp)
  | succ bound ih =>
      refine (Passes.accept _).andThen fun _ => .ite ?_ (.pure (by simp))
      exact (hp before).bind fun item => (ih _).bind fun items => .pure (by simp)

theorem commaSeparated (hp : Adds p added) :
    Adds (Parser.commaSeparated p) fun items => items.flatMap added := fun before =>
  (hp before).bind fun first => Passes.remaining.andThen fun bound =>
    (further hp bound _).bind fun more => .pure (by simp)

/-- A placeholder has the place of its name, which is a new one or one that has been met. -/
theorem placeholder : Adds Parser.placeholder Expr.placeholders := by
  intro before total c hc e c' heq
  obtain ⟨rest, position, names⟩ := c
  cases rest with
  | nil => cases heq
  | cons token rest =>
      have hname : ∀ name, (Parser.advance >>= fun _ => Parser.placeOf name >>= fun place =>
          Pure.pure (Expr.placeholder name place) : Parser Expr) ⟨token :: rest, position, names⟩
            = .ok (e, c') → c'.HasMet total (before ++ e.placeholders) := by
        intro name h
        obtain ⟨_, c₁, hadvance, h⟩ := bind_eq_ok.mp h
        obtain ⟨place, c₂, hplace, h⟩ := bind_eq_ok.mp h
        cases hadvance
        rw [placeOf_eq] at hplace
        cases hplace
        cases h
        exact hc.placeholder name
      obtain ⟨token?, c₁, hpeek, heq⟩ := bind_eq_ok.mp heq
      cases hpeek
      dsimp only [List.head?_cons] at heq
      cases hkind : token.kind <;> rw [hkind] at heq
      case identifier => exact hname _ heq
      case integer => exact hname _ heq
      case keyword => exact hname _ heq
      case quotedIdentifier => exact hname _ heq
      all_goals cases heq

theorem listUntil (hsub : Adds (sub 0) Expr.placeholders) (closing : TokenKind) (what : String) :
    Adds (Parser.listUntil sub closing what) ofList := by
  intro before
  have hclose : ∀ items : List Expr, Meets (before ++ ofList items)
      (do Parser.expect closing what; return items) fun items => before ++ ofList items :=
    fun items => (Passes.expect _ _).andThen fun _ => .pure rfl
  refine Passes.peek.andThen fun next => .ite ?_ ?_
  · exact Meets.bind (.pure (by simp)) hclose
  · exact (commaSeparated hsub before).bind hclose

theorem objectField (hsub : Adds (sub 0) Expr.placeholders) :
    Adds (Parser.objectField sub) fun field => field.2.placeholders := by
  intro before
  refine .ahead .unexpected fun token => ?_
  dsimp only
  split
  · exact Passes.advance.andThen fun _ => (Passes.expect _ _).andThen fun _ =>
      (hsub before).bind fun e => .pure rfl
  · exact .unexpected

theorem objectBody (hsub : Adds (sub 0) Expr.placeholders) :
    Adds (Parser.objectBody sub) Expr.placeholders := by
  intro before
  have hclose : ∀ fields : List (String × Expr),
      Meets (before ++ fields.flatMap fun field => field.2.placeholders)
        (do Parser.expect .rightBrace "\x7d"; return Expr.object fields)
        fun e => before ++ e.placeholders := by
    intro fields
    refine (Passes.expect _ _).andThen fun _ => parent rfl ?_
    rw [Expr.children, ofList, List.flatMap_map]
  refine Passes.peek.andThen fun next => .ite ?_ ?_
  · exact Meets.bind (.pure (by simp)) hclose
  · exact (commaSeparated (objectField hsub) before).bind hclose

theorem arguments (hsub : Adds (sub 0) Expr.placeholders) :
    Adds (Parser.arguments sub) ofList := by
  intro before
  refine Passes.get.andThen fun c => .ite ?_ (listUntil hsub _ _ before)
  refine Passes.advance.andThen fun _ => (Passes.expect _ _).andThen fun _ => .pure ?_
  exact (List.append_nil before).symm

theorem call (hsub : Adds (sub 0) Expr.placeholders) :
    Adds (Parser.call sub) Expr.placeholders := by
  intro before
  have hcall : ∀ name : FunctionName, Meets before
      (do Parser.expect .leftParen "("; return Expr.call name (← Parser.arguments sub))
      fun e => before ++ e.placeholders := by
    intro name
    exact (Passes.expect _ _).andThen fun _ => (arguments hsub before).bind fun args => parent rfl rfl
  refine Passes.memberName.andThen fun first => (Passes.accept _).andThen fun _ => .ite ?_ ?_
  · exact Passes.memberName.andThen fun second => (Passes.pure _).andThen hcall
  · exact (Passes.pure _).andThen hcall

theorem named (hsub : Adds (sub 0) Expr.placeholders) :
    Adds (Parser.named sub) Expr.placeholders := by
  intro before
  refine Passes.get.andThen fun c => .ite (call hsub before) ?_
  exact Passes.memberName.andThen fun name => (Passes.pathFrom _).andThen fun path => leaf rfl rfl

theorem primary (hsub : Adds (sub 0) Expr.placeholders) :
    Adds (Parser.primary sub) Expr.placeholders := by
  intro before
  have hliteral : ∀ value : Value, Meets before (do Parser.advance; return Expr.literal value)
      fun e => before ++ e.placeholders := by
    intro value
    exact Passes.advance.andThen fun _ => leaf rfl rfl
  refine .ahead .unexpected fun token => ?_
  dsimp only
  split
  · exact hliteral _
  · exact hliteral _
  · exact hliteral _
  · split
    · exact hliteral _
    · exact .unexpected
  · exact Passes.advance.andThen fun _ => placeholder before
  · refine Passes.advance.andThen fun _ => (hsub before).bind fun e => ?_
    exact (Passes.expect _ _).andThen fun _ => .pure rfl
  · exact Passes.advance.andThen fun _ => (listUntil hsub _ _ before).bind fun items => parent rfl rfl
  · exact Passes.advance.andThen fun _ => objectBody hsub before
  · exact Passes.advance.andThen fun _ => (Passes.pathFrom _).andThen fun path => leaf rfl rfl
  · exact named hsub before
  · exact named hsub before
  · exact .unexpected

theorem signed (hsub : ∀ least, Adds (sub least) Expr.placeholders) (sign : Token) :
    Adds (Parser.signed sub sign) Expr.placeholders := by
  intro before
  have hoperand : Meets before (Parser.signed.operand sub sign)
      fun e => before ++ e.placeholders := by
    refine (hsub signPower before).bind fun e => ?_
    split
    · exact .pure rfl
    · exact parent rfl (by simp [Expr.children])
  refine .ahead hoperand fun number => .ite ?_ hoperand
  exact Passes.advance.andThen fun _ => leaf rfl rfl

theorem operand (hsub : ∀ least, Adds (sub least) Expr.placeholders) :
    Adds (Parser.operand sub) Expr.placeholders := by
  intro before
  have hunary : ∀ (op : UnaryOp) (least : Nat), Meets before
      (do Parser.advance; return Expr.unary op (← sub least))
      fun e => before ++ e.placeholders := by
    intro op least
    refine Passes.advance.andThen fun _ => (hsub least before).bind fun e => parent rfl ?_
    simp [Expr.children]
  refine .ahead (primary (hsub 0) before) fun token => ?_
  dsimp only
  split
  · exact Passes.advance.andThen fun _ => signed hsub token before
  · exact Passes.advance.andThen fun _ => signed hsub token before
  · exact hunary _ _
  · exact hunary _ _
  · exact .ite (hunary _ _) (primary (hsub 0) before)

/-! ### Predicates

The target of a predicate has been read before it, and stands before its operands in the tree. -/

theorem inList (hsub : ∀ least, Adds (sub least) Expr.placeholders) :
    Meets (before ++ target.placeholders) (Parser.inList sub target negated)
      fun e => before ++ e.placeholders := by
  have hin : ∀ (items : List Expr) (form : ListForm),
      Meets (before ++ target.placeholders ++ ofList items)
        (Pure.pure (Expr.isIn target items negated form)) fun e => before ++ e.placeholders :=
    fun items form => parent rfl (by simp [Expr.children])
  refine Passes.peek.andThen fun kind => ?_
  dsimp only
  split
  · exact Passes.advance.andThen fun _ => (listUntil (hsub 0) _ _ _).bind fun items => hin items _
  · refine Passes.position.andThen fun start => (primary (hsub 0) _).bind fun list => ?_
    refine (Passes.requireLiterals _ _).andThen fun _ => ?_
    split
    · -- The brackets are no node of the result: what they hold are the candidates.
      next items =>
        rw [Expr.placeholders_of_none (e := .array items) rfl]
        exact hin items _
    · rw [← ofList_singleton list]
      exact hin _ _
  · refine (hsub operandPower _).bind fun item => ?_
    rw [← ofList_singleton item]
    exact hin _ _

theorem predicate (hsub : ∀ least, Adds (sub least) Expr.placeholders) (start : Nat) :
    Meets (before ++ target.placeholders) (Parser.predicate sub target start)
      fun e => before ++ e.placeholders := by
  have hoperand := hsub operandPower
  refine (Passes.acceptWord _).andThen fun negated => ?_
  refine .ifWord (inList hsub) <| .ifWord ?overlaps <| .ifWord ?like <| .ifWord ?between <|
    .ifWord ?regexp <| .ite .unexpected ?is
  case overlaps =>
    refine (Passes.requireLiterals _ _).andThen fun _ => Passes.position.andThen fun _ => ?_
    refine (hoperand _).bind fun right => (Passes.requireLiterals _ _).andThen fun _ => parent rfl ?_
    simp [Expr.children]
  case like =>
    have hlike : ∀ (pattern : Expr) (escape : Option Expr), Meets
        (before ++ target.placeholders ++ pattern.placeholders ++ ofList escape.toList)
        (Pure.pure (Expr.like target pattern escape negated)) fun e => before ++ e.placeholders :=
      fun pattern escape => parent rfl (by simp [Expr.children])
    refine (hoperand _).bind fun pattern => .ifWord ?_ ?_
    · have hescape : Meets (before ++ target.placeholders ++ pattern.placeholders)
          (some <$> sub operandPower) fun escape =>
            before ++ target.placeholders ++ pattern.placeholders ++ ofList escape.toList :=
        (hoperand _).map fun e => by simp
      exact hescape.bind (hlike pattern)
    · exact Meets.bind (.pure (by simp)) (hlike pattern)
  case between =>
    refine (hoperand _).bind fun low => (Passes.expectWord _).andThen fun _ => ?_
    refine (hoperand _).bind fun high => parent rfl ?_
    simp [Expr.children]
  case regexp =>
    refine (hoperand _).bind fun pattern => parent rfl ?_
    simp [Expr.children]
  case is =>
    refine (Passes.expectWord _).andThen fun _ => (Passes.acceptWord _).andThen fun _ => ?_
    refine (hoperand _).bind fun value => parent rfl ?_
    simp [Expr.children]

/-! ### Expressions -/

/-- Every turn reads what stands to the right of what has been read. -/
theorem operators (hsub : ∀ least, Adds (sub least) Expr.placeholders) (least start bound : Nat)
    (left : Expr) : Meets (before ++ left.placeholders)
      (Parser.operators sub least start bound left) fun e => before ++ e.placeholders := by
  induction bound generalizing left with
  | zero => exact .pure rfl
  | succ bound ih =>
      refine Passes.get.andThen fun c => .ite (.ite (.pure rfl) ?_) ?_
      · exact (predicate hsub start).bind fun e => ih e
      · refine Passes.peek?.andThen fun token? => ?_
        split
        · exact .pure rfl
        · rename_i op _
          refine .ite (.pure rfl) (Passes.advance.andThen fun _ => ?_)
          have hright : Meets (before ++ left.placeholders) (sub (rightPower op))
              fun right => before ++ (Expr.binary op left right).placeholders :=
            (hsub _ _).mono fun right => by
              rw [Expr.placeholders_of_none (e := .binary ..) rfl]
              simp [Expr.children]
          exact hright.bind fun right => ih _

/-- By induction on the depth: whatever nests, the expressions inside are less deep. -/
theorem expression (depth least : Nat) : Adds (Parser.expression depth least) Expr.placeholders := by
  induction depth generalizing least with
  | zero => exact fun _ => .unexpected
  | succ depth ih =>
      intro before
      exact Passes.position.andThen fun start => (operand ih before).bind fun left =>
        Passes.remaining.andThen fun bound => operators ih least start bound left

theorem wholeExpression : Adds Parser.wholeExpression Expr.placeholders := fun before =>
  Passes.remaining.andThen fun _ => expression _ _ before

/-! ### Whole sources -/

/-- To the end of the source. -/
theorem toEnd (hp : Adds p added) :
    Adds (do let a ← p; Parser.expectEnd; return a) added := fun before =>
  (hp before).bind fun _ => Passes.expectEnd.andThen fun _ => .pure rfl

theorem sortKey : Adds Parser.sortKey fun key => key.expr.placeholders := by
  intro before
  refine (wholeExpression before).bind fun e => .ifWord (.pure rfl) ?_
  exact (Passes.acceptWord _).andThen fun _ => .pure rfl

theorem column : Adds Parser.column fun column => column.source.placeholders := by
  intro before
  refine (wholeExpression before).bind fun source => .ifWord ?_ ?_
  · exact Passes.aliasName.andThen fun _ => .pure rfl
  · split
    · exact .pure rfl
    · exact .pure rfl

end Adds

/-! ## Before and after a text -/

/-- A token takes a character at least. -/
theorem Token.length_lexFrom_le {offset : Nat} {last : Option Token} {cs : List Char}
    {tokens : List Token} (h : lexFrom offset last cs = .ok tokens) :
    (Cursor.ofTokens tokens).rest.length ≤ cs.length := by
  fun_induction lexFrom offset last cs generalizing tokens with
  | case1 =>
      cases h
      exact Nat.le_refl 0
  | case2 _ _ c rest _ ih => exact Nat.le_succ_of_le (ih h)
  | case3 => cases h
  | case4 => cases h
  | case5 _ _ _ rest _ _ _ _ _ _ _ later hlater =>
      rename_i ih
      cases h
      have hfew : (Cursor.ofTokens later).rest.length ≤ rest.length :=
        Nat.le_trans (ih hlater) (List.length_drop ▸ Nat.sub_le _ _)
      have hcons : ∀ token : Token, (Cursor.ofTokens (token :: later)).rest.length
          ≤ (Cursor.ofTokens later).rest.length + 1 := by
        intro token
        simp only [Cursor.ofTokens, List.filter_cons]
        split
        · exact Nat.le_refl _
        · exact Nat.le_succ _
      exact Nat.le_trans (hcons _) (Nat.succ_le_succ hfew)

/-- Before its first token nothing has been met. -/
theorem Cursor.hasMet_ofTokens (tokens : List Token) :
    (ofTokens tokens).HasMet (ofTokens tokens).rest.length [] where
  names := rfl
  numbered := trivial
  few := by simp [ofTokens]

/-- The number of a name, if it has been met. -/
def Cursor.place? (c : Cursor) (name : String) : Option UInt32 :=
  (c.names.idxOf? name).map UInt32.ofNat

theorem Cursor.place?_of_mem {c : Cursor} (h : name ∈ c.names) :
    c.place? name = some (UInt32.ofNat (c.names.idxOf name)) := by
  rw [place?, idxOf?_of_mem h]
  rfl

/-- What the cursor at the end of a text knows of the placeholders in the expressions it gave. -/
structure Cursor.Numbers (text : String) (es : List Expr) (c : Cursor) : Prop where
  /-- The names are those of the placeholders, in order of first appearance. -/
  names : c.names = ((es.flatMap Expr.nodes).filterMap Expr.placeholderName?).eraseDups
  /-- The number of a name is its place, which is exact unless the text has more characters than
  there are numbers. -/
  place : ∀ k name, c.names[k]? = some name → c.place? name = some (UInt32.ofNat k)
    ∧ (text.length ≤ UInt32.size → (UInt32.ofNat k).toNat = k)
  /-- A placeholder, wherever it stands, has the number of its name. -/
  numbered : ∀ e ∈ es, ∀ name position, .placeholder name position ∈ e.nodes →
    c.place? name = some position

theorem Cursor.HasMet.numbers {total : Nat} {text : String} {es : List Expr} {c : Cursor}
    (h : c.HasMet total (es.flatMap Expr.placeholders)) (htotal : total ≤ text.length) :
    c.Numbers text es where
  names := by
    rw [h.names, namesAfter, List.filterMap_flatMap, List.filterMap_flatMap,
      ← Expr.firstOccurrences_eq_eraseDups]
    simp only [Expr.filterMap_placeholders]
    rfl
  place := by
    intro k name hname
    obtain ⟨hk, rfl⟩ := List.getElem?_eq_some_iff.mp hname
    have hnodup : c.names.Nodup := h.names ▸ nodup_namesAfter _ List.nodup_nil
    constructor
    · rw [place?_of_mem (List.getElem_mem hk), hnodup.idxOf_getElem k hk]
    · intro hlength
      have hfew := h.few
      exact UInt32.toNat_ofNat_of_lt' (by omega)
  numbered := by
    intro e he name position hmem
    obtain ⟨hname, rfl⟩ := h.numbered.position_eq
      (List.mem_flatMap.mpr ⟨e, he, Expr.mem_placeholders.mpr hmem⟩)
    rw [← h.names] at hname ⊢
    exact place?_of_mem hname

/-- A parser of a whole text starts where nothing has been met. -/
theorem Adds.numbers_of_run {p : Parser α} (hp : Adds p added) {text : String} {a : α} {c : Cursor}
    {es : List Expr} (hes : added a = es.flatMap Expr.placeholders) (h : p.run text = .ok (a, c)) :
    c.Numbers text es := by
  obtain ⟨tokens, hlex, hrun⟩ := Outcome.bind_eq_ok.mp h
  have hmet : c.HasMet (Cursor.ofTokens tokens).rest.length (added a) :=
    hp [] _ _ (Cursor.hasMet_ofTokens tokens) a c hrun
  rw [hes] at hmet
  rw [Token.lex_eq] at hlex
  exact hmet.numbers (Token.length_lexFrom_le hlex)

/-- Whatever the text, once it has been read the names met are those of the placeholders in the
result, in order of first appearance, each name has its place among them for its number, and each
placeholder has the number of its name: for a filter, a list of sort keys, of columns and of
expressions. -/
theorem numbered_of_run (text : String) :
    (∀ e c, Parser.filter.run text = .ok (e, c) →
        c.Numbers text [e] ∧ c.names = e.placeholderNames)
      ∧ (∀ keys c, Parser.sortKeys.run text = .ok (keys, c) →
          c.Numbers text (keys.map SortKey.expr))
      ∧ (∀ columns c, Parser.columns.run text = .ok (columns, c) →
          c.Numbers text (columns.map Column.source))
      ∧ ∀ es c, Parser.expressions.run text = .ok (es, c) → c.Numbers text es := by
  refine ⟨fun e c h => ?_, fun keys c h => ?_, fun columns c h => ?_, fun es c h => ?_⟩
  · have hnumbers : c.Numbers text [e] :=
      (Adds.toEnd Adds.wholeExpression).numbers_of_run (List.flatMap_singleton ..).symm h
    refine ⟨hnumbers, ?_⟩
    rw [hnumbers.names, List.flatMap_singleton, Expr.placeholderNames,
      Expr.firstOccurrences_eq_eraseDups]
  · exact (Adds.toEnd Adds.sortKey.commaSeparated).numbers_of_run (List.flatMap_map ..).symm h
  · exact (Adds.toEnd Adds.column.commaSeparated).numbers_of_run (List.flatMap_map ..).symm h
  · exact (Adds.toEnd Adds.wholeExpression.commaSeparated).numbers_of_run rfl h

/-- Texts of each kind, with names that come again. -/
theorem numbered_of_run_samples :
    (∃ e c, Parser.filter.run ":b in [:a, \x7bx: :b\x7d] and not f(:c) like :a escape :D" = .ok (e, c)
        ∧ c.names = ["b", "a", "c", "d"]
        ∧ c.Numbers ":b in [:a, \x7bx: :b\x7d] and not f(:c) like :a escape :D" [e]
        ∧ c.names = e.placeholderNames)
      ∧ (∃ keys c, Parser.sortKeys.run "a + :n desc, :m" = .ok (keys, c) ∧ c.names = ["n", "m"]
          ∧ c.Numbers "a + :n desc, :m" (keys.map SortKey.expr))
      ∧ (∃ columns c, Parser.columns.run "x between :lo and :hi as b, :lo" = .ok (columns, c)
          ∧ c.names = ["lo", "hi"]
          ∧ c.Numbers "x between :lo and :hi as b, :lo" (columns.map Column.source))
      ∧ ∃ es c, Parser.expressions.run "-:1, (:2 - :1)" = .ok (es, c) ∧ c.names = ["1", "2"]
          ∧ c.Numbers "-:1, (:2 - :1)" es := by
  obtain ⟨filtered, hfiltered, hnames⟩ := Outcome.exists_eq_ok
    (Parser.filter.run ":b in [:a, \x7bx: :b\x7d] and not f(:c) like :a escape :D")
    (fun result => result.2.names == ["b", "a", "c", "d"]) (by decide +kernel)
  obtain ⟨sorted, hsorted, hnames₁⟩ := Outcome.exists_eq_ok (Parser.sortKeys.run "a + :n desc, :m")
    (fun result => result.2.names == ["n", "m"]) (by decide +kernel)
  obtain ⟨projected, hprojected, hnames₂⟩ := Outcome.exists_eq_ok
    (Parser.columns.run "x between :lo and :hi as b, :lo")
    (fun result => result.2.names == ["lo", "hi"]) (by decide +kernel)
  obtain ⟨listed, hlisted, hnames₃⟩ := Outcome.exists_eq_ok (Parser.expressions.run "-:1, (:2 - :1)")
    (fun result => result.2.names == ["1", "2"]) (by decide +kernel)
  exact ⟨⟨_, _, hfiltered, beq_iff_eq.mp hnames, (numbered_of_run _).1 _ _ hfiltered⟩,
    ⟨_, _, hsorted, beq_iff_eq.mp hnames₁, (numbered_of_run _).2.1 _ _ hsorted⟩,
    ⟨_, _, hprojected, beq_iff_eq.mp hnames₂, (numbered_of_run _).2.2.1 _ _ hprojected⟩,
    ⟨_, _, hlisted, beq_iff_eq.mp hnames₃, (numbered_of_run _).2.2.2 _ _ hlisted⟩⟩

end DocStore
