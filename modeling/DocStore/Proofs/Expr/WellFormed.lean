import DocStore.Proofs.Expr.Printable
import DocStore.Proofs.Expr.Reading
import DocStore.Proofs.Expr.Yielding
import DocStore.Proofs.Text.Case

/-!
# What is read is well-formed

Evaluation relies on shapes that the type of expressions does not enforce: a container of `IN` is one
expression, a bracketed list holds literals, `*` is the sole argument of a call, no path ends in
`**`, a placeholder is named in lower case, and a literal is a scalar and a number.

Main statement: `wellFormed_of_parse`, every tree in the result of reading a text has these shapes at
all of its nodes.
-/

namespace DocStore

open DocStore.Parser

/-! ## Shapes -/

/-- A path that can stand in an expression: its last step is not `**`. -/
def Path.IsClosed (path : Path) : Prop := path.segments.getLast? ≠ some .doubleWildcard

/-- Null, a truth value, a string, or a number.  Without a sign bit of its own, an unsigned number is
beyond the signed ones. -/
def Value.IsScalar : Value → Prop
  | .null | .bool _ | .int _ | .str _ => True
  | .uint n => Int64.maxValue.toInt < n.toNat
  | .float x => x.isNaN = false
  | .arr _ | .obj _ => False

namespace Expr

/-- The shape of a node, as far as it is not a matter of its type. -/
def HasShape : Expr → Prop
  | .literal value => value.IsScalar
  | .field path => path.IsClosed
  | .placeholder name _ => name.toLower = name
  | .isIn _ list _ .bracket => ∀ item ∈ list, item.isLiteral = true
  | .isIn _ list _ .container => list.length = 1
  | .overlaps left right _ => left.holdsLiterals = true ∧ right.holdsLiterals = true
  | _ => True

/-- Every node has its shape, and `*` stands nowhere but alone between the parentheses of a call. -/
structure WellFormed (e : Expr) : Prop where
  notStar : e ≠ .star
  shape : ∀ node ∈ e.nodes, node.HasShape
  star : ∀ node ∈ e.nodes, .star ∈ node.children → ∃ name, node = .call name [.star]

variable {e : Expr}

/-- A tree is well-formed if its root and all of its children are. -/
theorem wellFormed_of_children (hstar : e ≠ .star) (hshape : e.HasShape)
    (hchildren : ∀ child ∈ e.children, child.WellFormed) : e.WellFormed := by
  have hnodes : ∀ {motive : Expr → Prop}, motive e →
      (∀ child ∈ e.children, ∀ node ∈ child.nodes, motive node) → ∀ node ∈ e.nodes, motive node := by
    intro motive hroot hbelow node hnode
    rw [nodes_eq_cons] at hnode
    rcases List.mem_cons.mp hnode with rfl | hnode
    · exact hroot
    · obtain ⟨child, hchild, hnode⟩ := List.mem_flatMap.mp hnode
      exact hbelow child hchild node hnode
  refine ⟨hstar, hnodes hshape fun child hchild => (hchildren child hchild).shape,
    hnodes (fun h => absurd rfl (hchildren _ h).notStar) fun child hchild =>
      (hchildren child hchild).star⟩

/-- A tree of a root and two operands. -/
theorem wellFormed_of_operands {left right : Expr} (hstar : e ≠ .star) (hshape : e.HasShape)
    (hchildren : e.children = [left, right]) (hleft : left.WellFormed) (hright : right.WellFormed) :
    e.WellFormed := by
  refine wellFormed_of_children hstar hshape ?_
  rw [hchildren]
  exact List.forall_mem_cons.mpr ⟨hleft, List.forall_mem_singleton.mpr hright⟩

theorem wellFormed_star (name : FunctionName) : WellFormed (.call name [.star]) := by
  have hnodes : nodes (.call name [.star]) = [.call name [.star], .star] := rfl
  refine ⟨nofun, ?_, ?_⟩ <;> rw [hnodes]
  · exact List.forall_mem_cons.mpr ⟨trivial, List.forall_mem_singleton.mpr trivial⟩
  · exact List.forall_mem_cons.mpr ⟨fun _ => ⟨name, rfl⟩, List.forall_mem_singleton.mpr nofun⟩

end Expr

/-! ## Literals -/

theorem Decimal.natural?_minus (cs : List Char) : natural? ('-' :: cs) = none := by
  simp [natural?, digits?, Char.isDigit]

/-- An integer that is unsigned because it is not a signed one is beyond those. -/
theorem Decimal.lt_of_uint64? {cs : List Char} {n : UInt64} (hsigned : int64? cs = none)
    (h : uint64? cs = some n) : Int64.maxValue.toInt < n.toNat := by
  obtain ⟨k, hk, rfl⟩ := Option.map_eq_some_iff.mp h
  obtain ⟨hk, hlt⟩ := Option.filter_eq_some_iff.mp hk
  have hinteger : integer? cs = some (k : Int) := by
    unfold integer?
    split
    · next rest =>
        rw [natural?_minus] at hk
        cases hk
    · rw [hk]
      rfl
  rw [int64?, hinteger, Option.bind_some] at hsigned
  have hsize : k < UInt64.size := of_decide_eq_true hlt
  have hvalue : (UInt64.ofNat k).toNat = k := UInt64.toNat_ofNat_of_lt' hsize
  rw [hvalue]
  split at hsigned
  · cases hsigned
  · next hrange =>
      have hmin : Int64.minValue.toInt ≤ (k : Int) := Int.le_trans (by decide) (Int.natCast_nonneg k)
      omega

/-- A number token, with the token of a sign before it or without one, is a number. -/
theorem Parser.isScalar_numberValue {kind : TokenKind} {sign : List Char} {text digits : String}
    (hsign : sign = [] ∨ sign = ['-'] ∨ sign = ['+'])
    (htext : text.toList = sign ++ digits.toList) (hdigits : Decimal.StartsNumeral digits.toList) :
    (numberValue kind text).IsScalar := by
  have hfloat : ∀ x, Decimal.float? text.toList = some x → x.isNaN = false := by
    intro x hx
    rw [htext] at hx
    exact Decimal.isNaN_float? hdigits hsign hx
  have hfallback : (((Decimal.float? text.toList).map Value.float).getD .null).IsScalar := by
    cases hx : Decimal.float? text.toList with
    | none => exact trivial
    | some x => exact hfloat x hx
  simp only [numberValue]
  split
  · cases hint : Decimal.int64? text.toList with
    | some i => exact trivial
    | none =>
        cases huint : Decimal.uint64? text.toList with
        | some n => exact Decimal.lt_of_uint64? hint huint
        | none => simpa using hfallback
  · simpa using hfallback

theorem Parser.isScalar_wordValue? {token : Token} {value : Value}
    (h : wordValue? token = some value) : value.IsScalar := by
  unfold wordValue? at h
  split_ifs at h <;> cases h <;> trivial

/-! ## Parsers -/

namespace Yields

variable {sub : Sub} {kind : TokenKind} {what : String} {target e : Expr} {negated : Bool}

theorem memberName : Yields Parser.memberName fun _ => True := by
  refine peek?.bind fun token? _ => ?_
  split
  · split
    · exact advance.bind fun _ _ => pure trivial
    · exact advance.bind fun _ _ => pure trivial
    · exact unexpected
  · exact unexpected

theorem aliasName : Yields Parser.aliasName fun _ => True := by
  refine peek?.bind fun token? _ => ?_
  split
  · split
    · exact advance.bind fun _ _ => pure trivial
    · exact advance.bind fun _ _ => pure trivial
    · exact advance.bind fun _ _ => pure trivial
    · exact unexpected
  · exact unexpected

theorem placeOf (name : String) : Yields (Parser.placeOf name) fun _ => True := by
  refine get.bind fun c hc => ?_
  split
  · exact pure trivial
  · refine Yields.bind (set ?_) fun _ _ => pure trivial
    exact hc

/-- Names of placeholders are put into lower case. -/
theorem placeholder : Yields Parser.placeholder Expr.WellFormed := by
  refine peek?.bind fun token? _ => ?_
  cases token? with
  | none => exact failHere _
  | some token =>
      have hname : ∀ name : String, name.toLower = name →
          Yields (Parser.advance >>= fun _ => Parser.placeOf name >>= fun place =>
            Pure.pure (Expr.placeholder name place)) Expr.WellFormed := by
        intro name hlower
        refine advance.bind fun _ _ => (placeOf name).bind fun place _ => pure ?_
        exact Expr.wellFormed_of_children nofun hlower nofun
      have hplain : token.text.toLower.toLower = token.text.toLower := by
        refine toLower_eq_self fun c hc => ?_
        have hmap : token.text.toLower.toList = token.text.toList.map Char.toLower :=
          String.toList_map
        rw [hmap] at hc
        obtain ⟨d, -, rfl⟩ := List.mem_map.mp hc
        exact Text.isUpper_toLower d
      have hquoted : (Text.lower (Quoted.unquote token.text)).toLower
          = Text.lower (Quoted.unquote token.text) :=
        toLower_eq_self fun c hc => Text.isUpper_of_mem_lower hc
      dsimp only
      cases token.kind with
      | identifier => exact hname _ hplain
      | integer => exact hname _ hplain
      | keyword => exact hname _ hplain
      | quotedIdentifier => exact hname _ hquoted
      | _ => exact failHere _

/-! ### Paths -/

theorem memberStep : Yields Parser.memberStep fun _ => True := by
  refine peek?.bind fun token? _ => ?_
  split
  · dsimp only
    split
    · exact advance.bind fun _ _ => pure trivial
    · exact failHere _
  · exact failHere _

theorem indexStep : Yields Parser.indexStep fun _ => True := by
  refine peek?.bind fun token? _ => ?_
  cases token? with
  | none => exact failHere _
  | some token =>
      have hrest : ∀ step : Segment,
          Yields (do Parser.advance; Parser.expect .rightBracket "]"; return step) fun _ => True :=
        fun step => advance.bind fun _ _ => (expect _ _).bind fun _ _ => pure trivial
      dsimp only
      cases token.kind with
      | star => exact hrest _
      | integer =>
          dsimp only
          cases Decimal.naturalBelow? UInt32.size token.text.toList with
          | some n => exact hrest _
          | none => exact (failHere (P := fun _ => False) _).bind fun _ h => h.elim
      | _ => exact (failHere (P := fun _ => False) _).bind fun _ h => h.elim

theorem pathStep? : Yields Parser.pathStep? fun _ => True :=
  ifAccept (memberStep.bind fun _ _ => pure trivial) <| ifAccept (pure trivial) <|
    ifAccept (pure trivial) <| ifAccept (indexStep.bind fun _ _ => pure trivial) (pure trivial)

theorem pathSteps (bound : Nat) : Yields (Parser.pathSteps bound) fun _ => True := by
  induction bound with
  | zero => exact pure trivial
  | succ bound ih =>
      refine pathStep?.bind fun step? _ => ?_
      cases step? with
      | none => exact pure trivial
      | some step => exact ih.bind fun _ _ => pure trivial

theorem pathFrom (start : List Segment) : Yields (Parser.pathFrom start) Path.IsClosed := by
  refine remaining.bind fun bound _ => (pathSteps bound).bind fun steps _ => ?_
  dsimp only
  exact ite (fun _ => (failHere (P := fun _ => False) _).bind fun _ h => h.elim)
    fun hopen => pure hopen

/-! ### Operands -/

theorem requireLiterals (e : Expr) (start : Nat) :
    Yields (Parser.requireLiterals e start) fun _ => e.holdsLiterals = true := by
  cases e with
  | array items =>
      rw [Parser.requireLiterals]
      split
      · exact throw _
      · next hnone =>
          have hall : ∀ item ∈ items, item.isLiteral = true := fun item hitem => by
            simpa using List.find?_eq_none.mp hnone item hitem
          exact pure (Expr.allLiteral_iff.mpr hall)
  | _ => exact pure rfl

/-- All of these expressions are well-formed. -/
abbrev AllWellFormed (es : List Expr) : Prop := ∀ e ∈ es, e.WellFormed

theorem listUntil (hsub : Yields (sub 0) Expr.WellFormed) :
    Yields (Parser.listUntil sub kind what) AllWellFormed := by
  refine peek.bind fun next _ => ite (fun _ => ?_) fun _ => ?_
  · exact (pure (P := AllWellFormed) (List.forall_mem_nil _)).bind fun items hitems =>
      (expect _ _).bind fun _ _ => pure hitems
  · exact (commaSeparated hsub).bind fun items hitems => (expect _ _).bind fun _ _ => pure hitems

theorem objectField (hsub : Yields (sub 0) Expr.WellFormed) :
    Yields (Parser.objectField sub) fun field => field.2.WellFormed := by
  refine peek?.bind fun token? _ => ?_
  split
  · dsimp only
    split
    · exact advance.bind fun _ _ => (expect _ _).bind fun _ _ => hsub.bind fun e he => pure he
    · exact unexpected
  · exact unexpected

theorem objectBody (hsub : Yields (sub 0) Expr.WellFormed) :
    Yields (Parser.objectBody sub) Expr.WellFormed := by
  have hfields : ∀ fields : List (String × Expr), (∀ field ∈ fields, field.2.WellFormed) →
      Yields (do Parser.expect .rightBrace "\x7d"; return Expr.object fields) Expr.WellFormed := by
    intro fields hfields
    refine (expect _ _).bind fun _ _ => pure (Expr.wellFormed_of_children nofun trivial ?_)
    intro child hchild
    obtain ⟨field, hfield, rfl⟩ := List.mem_map.mp hchild
    exact hfields field hfield
  refine peek.bind fun next _ => ite (fun _ => ?_) fun _ => ?_
  · exact (pure (P := fun fields => ∀ field ∈ fields, field.2.WellFormed) nofun).bind hfields
  · exact (commaSeparated (objectField hsub)).bind hfields

theorem arguments (hsub : Yields (sub 0) Expr.WellFormed) :
    Yields (Parser.arguments sub) fun args => args = [.star] ∨ AllWellFormed args := by
  refine get.bind fun c _ => ite (fun _ => ?_) fun _ => (listUntil hsub).mono fun _ h => .inr h
  exact advance.bind fun _ _ => (expect _ _).bind fun _ _ => pure (.inl rfl)

theorem call (hsub : Yields (sub 0) Expr.WellFormed) :
    Yields (Parser.call sub) Expr.WellFormed := by
  have hcall : ∀ name : FunctionName,
      Yields (do Parser.expect .leftParen "("; return Expr.call name (← Parser.arguments sub))
        Expr.WellFormed := by
    intro name
    refine (expect _ _).bind fun _ _ => (arguments hsub).bind fun args hargs => pure ?_
    rcases hargs with rfl | hargs
    · exact Expr.wellFormed_star name
    · exact Expr.wellFormed_of_children nofun trivial hargs
  refine memberName.bind fun first _ => ifAccept ?_ ?_
  · exact memberName.bind fun second _ => (pure (P := fun _ => True) trivial).bind fun name _ =>
      hcall name
  · exact (pure (P := fun _ => True) trivial).bind fun name _ => hcall name

theorem named (hsub : Yields (sub 0) Expr.WellFormed) :
    Yields (Parser.named sub) Expr.WellFormed := by
  refine get.bind fun c _ => ite (fun _ => call hsub) fun _ => ?_
  exact memberName.bind fun name _ => (pathFrom _).bind fun path hpath =>
    pure (Expr.wellFormed_of_children nofun hpath nofun)

theorem literal {v : Value} (hv : v.IsScalar) :
    Yields (do Parser.advance; return Expr.literal v) Expr.WellFormed :=
  advance.bind fun _ _ => pure (Expr.wellFormed_of_children nofun hv nofun)

/-- What starts with an opening bracket is an array. -/
theorem primary_leftBracket {c : Cursor} (hsub : Yields (sub 0) Expr.WellFormed) (hc : c.Sound)
    (hkind : c.kindAt 0 = .leftBracket) :
    YieldsAt c (Parser.primary sub) fun e => ∃ items, e = .array items ∧ AllWellFormed items := by
  obtain ⟨rest, position, names⟩ := c
  cases rest with
  | nil => cases hkind
  | cons token rest =>
      have hkind : token.kind = .leftBracket := hkind
      have hlist : Yields (do Parser.advance; return .array (← Parser.listUntil sub .rightBracket "]"))
          fun e => ∃ items, e = Expr.array items ∧ AllWellFormed items :=
        advance.bind fun _ _ => (listUntil hsub).bind fun items hitems => pure ⟨items, rfl, hitems⟩
      refine YieldsAt.peek?_bind ?_
      simp only [List.head?_cons, hkind]
      exact hlist _ hc

theorem primary (hsub : Yields (sub 0) Expr.WellFormed) :
    Yields (Parser.primary sub) Expr.WellFormed := by
  refine peek?.bind fun token? htoken? => ?_
  cases token? with
  | none => exact unexpected
  | some token =>
      have htoken : token.Sound := htoken? token rfl
      have hnumber : ∀ {kind}, token.kind = kind → kind = .integer ∨ kind = .float →
          (numberValue kind token.text).IsScalar := fun hkind h =>
        isScalar_numberValue (.inl rfl) (List.nil_append _).symm
          (htoken.number (by rwa [hkind]))
      dsimp only
      cases hkind : token.kind with
      | integer => exact literal (hnumber hkind (.inl rfl))
      | float => exact literal (hnumber hkind (.inr rfl))
      | stringLiteral => exact literal trivial
      | keyword =>
          dsimp only
          cases hvalue : wordValue? token with
          | none => exact unexpected
          | some value => exact literal (isScalar_wordValue? hvalue)
      | colon => exact advance.bind fun _ _ => placeholder
      | leftParen =>
          exact advance.bind fun _ _ => hsub.bind fun e he => (expect _ _).bind fun _ _ => pure he
      | leftBracket =>
          exact advance.bind fun _ _ => (listUntil hsub).bind fun items hitems =>
            pure (Expr.wellFormed_of_children nofun trivial hitems)
      | leftBrace => exact advance.bind fun _ _ => objectBody hsub
      | dollar =>
          exact advance.bind fun _ _ => (pathFrom _).bind fun path hpath =>
            pure (Expr.wellFormed_of_children nofun hpath nofun)
      | identifier => exact named hsub
      | quotedIdentifier => exact named hsub
      | _ => exact unexpected

theorem signed {sign : Token} (hsub : Yields (sub signPower) Expr.WellFormed) (hsign : sign.Sound)
    (hkind : sign.kind = .minus ∨ sign.kind = .plus) :
    Yields (Parser.signed sub sign) Expr.WellFormed := by
  have hoperand : Yields (Parser.signed.operand sub sign) Expr.WellFormed := by
    refine hsub.bind fun e he => pure ?_
    split
    · exact he
    · exact Expr.wellFormed_of_children nofun trivial (List.forall_mem_singleton.mpr he)
  refine peek?.bind fun token? htoken? => ?_
  cases token? with
  | none => exact hoperand
  | some number =>
      -- A sign right before a number goes into the literal, so the text that is read has both.
      refine ite (fun hnumber => literal ?_) fun _ => hoperand
      have htext : sign.text.toList = [] ∨ sign.text.toList = ['-'] ∨ sign.text.toList = ['+'] := by
        rcases hkind with hminus | hplus
        · rw [hsign.minus hminus]
          exact .inr (.inl rfl)
        · rw [hsign.plus hplus]
          exact .inr (.inr rfl)
      exact isScalar_numberValue htext String.toList_append
        ((htoken? number rfl).number hnumber)

theorem operand (hsub : ∀ least, Yields (sub least) Expr.WellFormed) :
    Yields (Parser.operand sub) Expr.WellFormed := by
  have hunary : ∀ op least, Yields (do Parser.advance; return Expr.unary op (← sub least))
      Expr.WellFormed := fun op least =>
    advance.bind fun _ _ => (hsub least).bind fun e he =>
      pure (Expr.wellFormed_of_children nofun trivial (List.forall_mem_singleton.mpr he))
  have hprimary := primary (hsub 0)
  refine peek?.bind fun token? htoken? => ?_
  cases token? with
  | none => exact hprimary
  | some token =>
      have hsigned := fun h => signed (hsub signPower) (htoken? token rfl) h
      dsimp only
      split
      · next hkind => exact advance.bind fun _ _ => hsigned (.inl hkind)
      · next hkind => exact advance.bind fun _ _ => hsigned (.inr hkind)
      · exact hunary .not signPower
      · exact hunary .bitNot signPower
      · exact ite (fun _ => hunary .not notPower) fun _ => hprimary

/-! ### Predicates -/

/-- In a list in brackets there are literals only: it is read as an array, which is checked. -/
theorem inList (hsub : ∀ least, Yields (sub least) Expr.WellFormed) (htarget : target.WellFormed) :
    Yields (Parser.inList sub target negated) Expr.WellFormed := by
  intro c hc
  refine YieldsAt.peek_bind ?_
  split
  · refine (advance.bind fun _ _ => (listUntil (hsub 0)).bind fun items hitems => pure ?_) c hc
    exact Expr.wellFormed_of_children nofun trivial (List.forall_mem_cons.mpr ⟨htarget, hitems⟩)
  -- That the operand is an array is known from the bracket, and only an array is checked.
  · next hkind =>
      refine YieldsAt.position_bind ((primary_leftBracket (hsub 0) hc hkind).bind ?_)
      rintro _ ⟨items, rfl, hitems⟩
      refine (requireLiterals _ _).bind fun _ hliterals => pure ?_
      exact Expr.wellFormed_of_children nofun (Expr.allLiteral_iff.mp hliterals)
        (List.forall_mem_cons.mpr ⟨htarget, hitems⟩)
  · refine ((hsub operandPower).bind fun e he => pure ?_) c hc
    exact Expr.wellFormed_of_operands nofun rfl rfl htarget he

theorem predicate (hsub : ∀ least, Yields (sub least) Expr.WellFormed) (start : Nat)
    (htarget : target.WellFormed) : Yields (Parser.predicate sub target start) Expr.WellFormed := by
  have hoperand := hsub operandPower
  refine (acceptWord _).bind fun negated _ => ?_
  refine ifWord (inList hsub htarget) <| ifWord ?overlaps <| ifWord ?like <| ifWord ?between <|
    ifWord ?regexp <| ite (fun _ => unexpected) fun _ => ?is
  case overlaps =>
    refine (requireLiterals _ _).bind fun _ hleft => position.bind fun rightStart _ => ?_
    refine hoperand.bind fun right hright => (requireLiterals _ _).bind fun _ hliterals => pure ?_
    exact Expr.wellFormed_of_operands nofun ⟨hleft, hliterals⟩ rfl htarget hright
  case like =>
    have hlike : ∀ pattern : Expr, pattern.WellFormed → ∀ escape : Option Expr,
        (∀ e ∈ escape, e.WellFormed) →
        Yields (Pure.pure (Expr.like target pattern escape negated)) Expr.WellFormed := by
      intro pattern hpattern escape hescape
      refine pure (Expr.wellFormed_of_children nofun trivial ?_)
      refine List.forall_mem_cons.mpr ⟨htarget, List.forall_mem_cons.mpr ⟨hpattern, ?_⟩⟩
      exact fun e he => hescape e (Option.mem_toList.mp he)
    refine hoperand.bind fun pattern hpattern => ifWord ?_ ?_
    · refine (map (R := fun escape => ∀ e ∈ escape, e.WellFormed) some ?_).bind (hlike pattern hpattern)
      exact hoperand.mono fun e he _ h => Option.some.inj h ▸ he
    · exact (pure nofun).bind (hlike pattern hpattern)
  case between =>
    refine hoperand.bind fun low hlow => (expectWord _).bind fun _ _ => ?_
    refine hoperand.bind fun high hhigh => pure (Expr.wellFormed_of_children nofun trivial ?_)
    exact List.forall_mem_cons.mpr ⟨htarget,
      List.forall_mem_cons.mpr ⟨hlow, List.forall_mem_singleton.mpr hhigh⟩⟩
  case regexp =>
    refine hoperand.bind fun pattern hpattern => pure ?_
    exact Expr.wellFormed_of_operands nofun trivial rfl htarget hpattern
  case is =>
    refine (expectWord _).bind fun _ _ => (acceptWord _).bind fun _ _ => ?_
    refine hoperand.bind fun value hvalue => pure ?_
    exact Expr.wellFormed_of_operands nofun trivial rfl htarget hvalue

/-! ### Expressions -/

/-- Every turn puts a well-formed operand into a node with what has been read. -/
theorem operators (hsub : ∀ least, Yields (sub least) Expr.WellFormed) (least start bound : Nat)
    (hleft : e.WellFormed) :
    Yields (Parser.operators sub least start bound e) Expr.WellFormed := by
  induction bound generalizing e with
  | zero => exact pure hleft
  | succ bound ih =>
      refine get.bind fun c _ => ite (fun _ => ite (fun _ => pure hleft) fun _ => ?_) fun _ => ?_
      · exact (predicate hsub start hleft).bind fun _ h => ih h
      · refine peek?.bind fun token? _ => ?_
        split
        · exact pure hleft
        · refine ite (fun _ => pure hleft) fun _ => advance.bind fun _ _ => ?_
          refine (hsub _).bind fun right hright => ih ?_
          exact Expr.wellFormed_of_operands nofun trivial rfl hleft hright

/-- By induction on the depth: whatever nests, the expressions inside are less deep. -/
theorem expression (depth least : Nat) : Yields (Parser.expression depth least) Expr.WellFormed := by
  induction depth generalizing least with
  | zero => exact unexpected
  | succ depth ih =>
      exact position.bind fun start _ => (operand ih).bind fun left hleft =>
        remaining.bind fun bound _ => operators ih least start bound hleft

theorem wholeExpression : Yields Parser.wholeExpression Expr.WellFormed :=
  remaining.bind fun _ _ => expression _ _

/-! ### Whole sources -/

theorem filter : Yields Parser.filter Expr.WellFormed :=
  wholeExpression.bind fun _ he => expectEnd.bind fun _ _ => pure he

/-- A list up to the end of the source. -/
theorem listToEnd {α : Type} {p : Parser α} {P : α → Prop} (hp : Yields p P) :
    Yields (do let items ← Parser.commaSeparated p; Parser.expectEnd; return items)
      fun items => ∀ item ∈ items, P item :=
  (commaSeparated hp).bind fun _ hitems => expectEnd.bind fun _ _ => pure hitems

theorem sortKey : Yields Parser.sortKey fun key => key.expr.WellFormed :=
  wholeExpression.bind fun _ he => ifWord (pure he) ((acceptWord _).bind fun _ _ => pure he)

theorem column : Yields Parser.column fun column => column.source.WellFormed := by
  refine wholeExpression.bind fun source hsource => ifWord ?_ ?_
  · exact aliasName.bind fun _ _ => pure hsource
  · split
    · exact pure hsource
    · exact pure hsource

theorem documentPath : Yields Parser.documentPath Path.IsClosed := by
  refine position.bind fun start _ => peek.bind fun kind _ => ?_
  have hchecked : ∀ path : Path, path.IsClosed → Yields (do
      if path.isRoot then
        let done : PUnit ← MonadExcept.throw (ParseError.rootPath start)
        Parser.expectEnd
        return path
      else
        Parser.expectEnd
        return path) Path.IsClosed := fun path hpath =>
    ite (fun _ => (throw (P := fun _ => False) _).bind fun _ h => h.elim)
      fun _ => expectEnd.bind fun _ _ => pure hpath
  split
  · exact advance.bind fun _ _ => (pathFrom _).bind hchecked
  · exact memberName.bind fun name _ => (pathFrom _).bind hchecked
  · exact memberName.bind fun name _ => (pathFrom _).bind hchecked
  · exact (unexpected (P := fun _ => False)).bind fun _ h => h.elim

end Yields

end DocStore
