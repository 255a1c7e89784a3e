import DocStore.Proofs.Expr.Cut
import DocStore.Proofs.Expr.Meeting
import Mathlib

/-!
# Errors point at tokens

Main statement: `Parser.errors_point_at_tokens`.  Where a source can be cut into tokens but not be read,
the error has the index of a token for its position.  If there are no more tokens, it is the index of
the end of the source; if a token is unexpected, it is the index of that token, and the message has its
text.

A parser stops where its cursor stands, or where an operand has started before.  So what carries the
proof is that a cursor stands among the tokens of the source (`Cursor.Among`): `Reports real p` says that
from such a cursor `p` goes on to another one, or stops with an error that points at a token.  There is
one rule for each way to build a parser, and one lemma for each parser of the grammar.
-/

namespace DocStore

open DocStore.Parser

/-! ## The tokens of a source -/

namespace Token

/-- The token has the text that stands between its offsets. -/
def Covers (source : List Char) (token : Token) : Prop :=
  ∃ before after, source = before ++ token.text.toList ++ after
    ∧ byteLength before = token.start ∧ byteLength (before ++ token.text.toList) = token.stop

/-- A source is cut into tokens of its text, and one token for its end. -/
theorem exists_of_lexFrom {source before cs : List Char} {offset : Nat} {last : Option Token}
    {tokens : List Token} (h : lexFrom offset last cs = .ok tokens) (hsource : source = before ++ cs)
    (hoffset : byteLength before = offset) :
    ∃ real eof, tokens = real ++ [eof] ∧ eof.kind = .eof
      ∧ ∀ token ∈ real, token.kind ≠ .eof ∧ token.Covers source := by
  fun_induction lexFrom offset last cs generalizing before tokens
  case case1 =>
    cases h
    exact ⟨[], _, rfl, rfl, List.forall_mem_nil _⟩
  case case2 offset last c rest hblank ih =>
    have hsplit : source = (before ++ [c]) ++ rest := by simp [hsource]
    refine ih h hsplit ?_
    rw [byteLength_append, hoffset]
    simp [byteLength]
  case case3 => cases h
  case case4 => cases h
  case case5 offset last c rest hblank kind length hscan lexeme stop token later hlater ih =>
    cases h
    have hsplit : source = before ++ lexeme ++ rest.drop (length - 1) := by
      rw [hsource, List.append_assoc, List.cons_append, List.take_append_drop]
    have hstop : byteLength (before ++ lexeme) = stop := by
      rw [byteLength_append, hoffset]
    obtain ⟨real, eof, rfl, heof, hreal⟩ := ih hlater hsplit hstop
    refine ⟨token :: real, eof, rfl, heof, List.forall_mem_cons.mpr ⟨⟨?_, ?_⟩, hreal⟩⟩
    · exact (scans_of_scan hscan).kind_ne_eof
    · refine ⟨before, rest.drop (length - 1), ?_, hoffset, ?_⟩
      · rw [String.toList_ofList]
        exact hsplit
      · rw [String.toList_ofList]
        exact hstop

theorem exists_of_lex {source : String} {tokens : List Token} (h : lex source = .ok tokens) :
    ∃ real eof, tokens = real ++ [eof] ∧ eof.kind = .eof
      ∧ ∀ token ∈ real, token.kind ≠ .eof ∧ token.Covers source.toList :=
  exists_of_lexFrom ((lex_eq source).symm.trans h) (List.nil_append _).symm rfl

end Token

/-! ## Errors and cursors -/

/-- The error points at a place among the tokens of a source, the end included, and says what is there.
-/
structure ParseError.PointsAt (error : ParseError) (real : List Token) (place : Nat) : Prop where
  position : error.position = some place
  le : place ≤ real.length
  noTokens : error.kind = .noTokens → place = real.length ∧ error = .noTokens place
  unexpected : error.kind = .unexpectedToken →
    ∃ token, real[place]? = some token ∧ error = .unexpected token.text place

/-- Whether errors of this kind say what is at their place. -/
def ParseErrorKind.tellsToken : ParseErrorKind → Bool
  | .noTokens | .unexpectedToken => true
  | _ => false

/-- The cursor stands before one of the tokens, or behind the last one. -/
structure Cursor.Among (c : Cursor) (real : List Token) : Prop where
  rest : c.rest = real.drop c.position
  le : c.position ≤ real.length

/-- From here, the parser goes on to a place among the tokens, or it stops with an error that points at
one. -/
def ReportsAt {α : Type} (real : List Token) (c : Cursor) (p : Parser α) : Prop :=
  match p c with
  | .ok (_, c') => c'.Among real
  | .error error => ∃ place, error.PointsAt real place

/-- From wherever it stands among the tokens. -/
def Reports {α : Type} (real : List Token) (p : Parser α) : Prop :=
  ∀ c, c.Among real → ReportsAt real c p

variable {α β : Type} {real : List Token} {p q : Parser α} {f : α → Parser β} {c : Cursor}

namespace Cursor.Among

theorem length_of_nil (h : c.Among real) (hnil : c.rest = []) : c.position = real.length :=
  Nat.le_antisymm h.le (List.drop_eq_nil_iff.mp (h.rest ▸ hnil))

theorem getElem? (h : c.Among real) : real[c.position]? = c.rest.head? := by
  rw [h.rest, List.head?_drop]

theorem noTokens (h : c.Among real) (hnil : c.rest = []) :
    (ParseError.noTokens c.position).PointsAt real c.position where
  position := rfl
  le := h.le
  noTokens _ := ⟨h.length_of_nil hnil, rfl⟩
  unexpected hkind := by cases hkind

theorem unexpected {token : Token} (h : c.Among real) (hhead : c.rest.head? = some token) :
    (ParseError.unexpected token.text c.position).PointsAt real c.position where
  position := rfl
  le := h.le
  noTokens hkind := by cases hkind
  unexpected _ := ⟨token, h.getElem?.trans hhead, rfl⟩

theorem ofTokens {real : List Token} {eof : Token} (heof : eof.kind = .eof)
    (hreal : ∀ token ∈ real, token.kind ≠ .eof) : (Cursor.ofTokens (real ++ [eof])).Among real where
  rest := by
    have hfilter : real.filter (fun t => !(t.kind == .eof)) = real :=
      List.filter_eq_self.mpr fun token htoken => by simp [hreal token htoken]
    simp [Cursor.ofTokens, hfilter, heof]
  le := Nat.zero_le _

end Cursor.Among

namespace ReportsAt

theorem bind (hp : ReportsAt real c p) (hf : ∀ a, Reports real (f a)) :
    ReportsAt real c (p >>= f) := by
  unfold ReportsAt at hp ⊢
  have hbind : (p >>= f) c = (p c >>= fun x => f x.1 x.2) := rfl
  rw [hbind]
  cases h : p c with
  | error error =>
      rw [h] at hp
      exact hp
  | ok result =>
      rw [h] at hp
      exact hf result.1 result.2 hp

/-- At the end of the source, no more tokens is what has to be said. -/
theorem noTokens (hc : c.Among real) (hnil : c.rest = []) :
    ReportsAt real c (Parser.failHere .noTokens : Parser α) :=
  ⟨c.position, hc.noTokens hnil⟩

theorem unexpected (hc : c.Among real) : ReportsAt real c (Parser.unexpected : Parser α) := by
  obtain ⟨rest, position, names⟩ := c
  cases rest with
  | nil => exact ⟨position, hc.noTokens rfl⟩
  | cons token more => exact ⟨position, hc.unexpected rfl⟩

end ReportsAt

namespace Reports

/-! ## Building parsers -/

theorem pure (a : α) : Reports real (Pure.pure a) := fun _ hc => hc

theorem bind (hp : Reports real p) (hf : ∀ a, Reports real (f a)) : Reports real (p >>= f) :=
  fun c hc => (hp c hc).bind hf

theorem map (g : α → β) (hp : Reports real p) : Reports real (g <$> p) := by
  rw [map_eq_pure_bind]
  exact hp.bind fun _ => pure _

theorem ite {condition : Prop} [Decidable condition] (hp : Reports real p) (hq : Reports real q) :
    Reports real (if condition then p else q) := by
  split
  · exact hp
  · exact hq

/-! ## Looking ahead and moving forward -/

theorem get : Reports real (get : Parser Cursor) := fun _ hc => hc

theorem remaining : Reports real Parser.remaining := get.bind fun _ => pure _

theorem peek : Reports real Parser.peek := get.bind fun _ => pure _

/-- A parser that remembers where it starts. -/
theorem position_bind {f : Nat → Parser β} (h : ∀ n ≤ real.length, Reports real (f n)) :
    Reports real (Parser.position >>= f) := fun c hc => h c.position hc.le c hc

theorem advance : Reports real Parser.advance := by
  intro c hc
  obtain ⟨rest, position, names⟩ := c
  obtain ⟨hrest, hle⟩ := hc
  cases rest with
  | nil => exact ⟨hrest, hle⟩
  | cons token more =>
      -- There is a token to pass, so the place behind it is one as well.
      have hrest : token :: more = real.drop position := hrest
      have hlength := congrArg List.length hrest
      rw [List.length_cons, List.length_drop] at hlength
      refine ⟨?_, by show position + 1 ≤ _; omega⟩
      show more = real.drop (position + 1)
      rw [← List.tail_drop, ← hrest, List.tail_cons]

/-- An error that says nothing of what is there points where it stands. -/
theorem failAt {error : ParseError} {place : Nat} (hplace : error.position = some place)
    (hle : place ≤ real.length) (hkind : error.kind.tellsToken = false) :
    Reports real (throw error : Parser α) := by
  refine fun _ _ => ⟨place, hplace, hle, fun h => ?_, fun h => ?_⟩
  · rw [h] at hkind
    cases hkind
  · rw [h] at hkind
    cases hkind

theorem failHere {error : Nat → ParseError} (hplace : ∀ n, (error n).position = some n)
    (hkind : ∀ n, (error n).kind.tellsToken = false) :
    Reports real (Parser.failHere error : Parser α) :=
  position_bind fun n hn => failAt (hplace n) hn (hkind n)

theorem unexpected : Reports real (Parser.unexpected : Parser α) := fun _ hc => .unexpected hc

/-- A parser that looks at the next token, if there is one. -/
theorem ahead {f : Option Token → Parser β}
    (hnone : ∀ c : Cursor, c.Among real → c.rest = [] → ReportsAt real c (f none))
    (hsome : ∀ token, Reports real (f (some token))) : Reports real (Parser.peek? >>= f) := by
  intro c hc
  have hpeek : (Parser.peek? >>= f) c = f c.rest.head? c := rfl
  rw [ReportsAt, hpeek]
  cases hhead : c.rest.head? with
  | none => exact hnone c hc (List.head?_eq_none_iff.mp hhead)
  | some token => exact hsome token c hc

/-- Without a next token there is nothing to go on with. -/
theorem token {f : Option Token → Parser β} (hnone : f none = Parser.failHere .noTokens)
    (hsome : ∀ token, Reports real (f (some token))) : Reports real (Parser.peek? >>= f) :=
  ahead (fun _ hc hnil => hnone ▸ .noTokens hc hnil) hsome

theorem accept (kind : TokenKind) : Reports real (Parser.accept kind) :=
  peek.bind fun _ => ite (advance.bind fun _ => pure _) (pure _)

theorem acceptWord (word : String) : Reports real (Parser.acceptWord word) :=
  get.bind fun _ => ite (advance.bind fun _ => pure _) (pure _)

theorem require (found : Bool) (what : String) : Reports real (Parser.require found what) :=
  ite (pure _) (token rfl fun _ => failHere (fun _ => rfl) fun _ => rfl)

theorem expect (kind : TokenKind) (what : String) : Reports real (Parser.expect kind what) :=
  (accept kind).bind fun found => require found what

theorem expectWord (word : String) : Reports real (Parser.expectWord word) :=
  (acceptWord word).bind fun found => require found _

theorem expectEnd : Reports real Parser.expectEnd := ahead (fun _ hc _ => hc) fun _ => unexpected

/-! ## Lists -/

theorem further (hp : Reports real p) (bound : Nat) :
    Reports real (commaSeparated.further p bound) := by
  induction bound with
  | zero => exact pure _
  | succ bound ih =>
      exact (accept _).bind fun _ => ite (hp.bind fun _ => ih.bind fun _ => pure _) (pure _)

theorem commaSeparated (hp : Reports real p) : Reports real (Parser.commaSeparated p) :=
  hp.bind fun _ => remaining.bind fun bound => (further hp bound).bind fun _ => pure _

/-! ## Names and paths -/

theorem memberName : Reports real Parser.memberName := by
  refine ahead (fun _ hc _ => .unexpected hc) fun token => ?_
  dsimp only
  split
  · exact advance.bind fun _ => pure _
  · exact advance.bind fun _ => pure _
  · exact unexpected

theorem aliasName : Reports real Parser.aliasName := by
  refine ahead (fun _ hc _ => .unexpected hc) fun token => ?_
  dsimp only
  split
  · exact advance.bind fun _ => pure _
  · exact advance.bind fun _ => pure _
  · exact advance.bind fun _ => pure _
  · exact unexpected

/-- Names of placeholders are met without moving. -/
theorem placeOf (name : String) : Reports real (Parser.placeOf name) := by
  intro c hc
  rw [ReportsAt, Parser.placeOf_eq]
  exact ⟨hc.rest, hc.le⟩

theorem placeholder : Reports real Parser.placeholder := by
  refine token rfl fun token => ?_
  dsimp only
  split
  · exact advance.bind fun _ => (placeOf _).bind fun _ => pure _
  · exact failHere (fun _ => rfl) fun _ => rfl

theorem memberStep : Reports real Parser.memberStep := by
  refine token rfl fun token => ?_
  dsimp only
  split
  · exact advance.bind fun _ => pure _
  · exact failHere (fun _ => rfl) fun _ => rfl

theorem indexStep : Reports real Parser.indexStep := by
  refine token rfl fun token => ?_
  have hrest : ∀ segment : Segment,
      Reports real (do Parser.advance; Parser.expect .rightBracket "]"; return segment) :=
    fun segment => advance.bind fun _ => (expect _ _).bind fun _ => pure _
  dsimp only
  split
  · exact hrest _
  · split
    · exact hrest _
    · exact .bind (failHere (fun _ => rfl) fun _ => rfl) hrest
  · exact .bind (failHere (fun _ => rfl) fun _ => rfl) hrest
  · exact .bind (failHere (fun _ => rfl) fun _ => rfl) hrest

theorem pathStep? : Reports real Parser.pathStep? := by
  refine (accept _).bind fun _ => ite (memberStep.bind fun _ => pure _) ?_
  refine (accept _).bind fun _ => ite (pure _) ?_
  refine (accept _).bind fun _ => ite (pure _) ?_
  exact (accept _).bind fun _ => ite (indexStep.bind fun _ => pure _) (pure _)

theorem pathSteps (bound : Nat) : Reports real (Parser.pathSteps bound) := by
  induction bound with
  | zero => exact pure _
  | succ bound ih =>
      refine pathStep?.bind fun step? => ?_
      cases step? with
      | none => exact pure _
      | some step => exact ih.bind fun _ => pure _

theorem pathFrom (start : List Segment) : Reports real (Parser.pathFrom start) :=
  remaining.bind fun bound => (pathSteps bound).bind fun _ =>
    ite (.bind (failHere (fun _ => rfl) fun _ => rfl) fun _ => pure _) (pure _)

/-! ## Operands -/

section Operands

variable {sub : Sub}

theorem requireLiterals (e : Expr) {start : Nat} (hstart : start ≤ real.length) :
    Reports real (Parser.requireLiterals e start) := by
  cases e with
  | array items =>
      rw [Parser.requireLiterals]
      split
      · exact failAt rfl hstart rfl
      · exact pure _
  | _ => exact pure _

theorem listUntil (hsub : Reports real (sub 0)) (closing : TokenKind) (what : String) :
    Reports real (Parser.listUntil sub closing what) := by
  have hclose : ∀ items : List Expr, Reports real (do Parser.expect closing what; return items) :=
    fun items => (expect _ _).bind fun _ => pure _
  exact peek.bind fun _ => ite ((pure _).bind hclose) ((commaSeparated hsub).bind hclose)

theorem objectField (hsub : Reports real (sub 0)) : Reports real (Parser.objectField sub) := by
  refine ahead (fun _ hc _ => .unexpected hc) fun token => ?_
  dsimp only
  split
  · exact advance.bind fun _ => (expect _ _).bind fun _ => hsub.bind fun _ => pure _
  · exact unexpected

theorem objectBody (hsub : Reports real (sub 0)) : Reports real (Parser.objectBody sub) := by
  have hclose : ∀ fields : List (String × Expr),
      Reports real (do Parser.expect .rightBrace "\x7d"; return Expr.object fields) :=
    fun fields => (expect _ _).bind fun _ => pure _
  exact peek.bind fun _ =>
    ite ((pure _).bind hclose) ((commaSeparated (objectField hsub)).bind hclose)

theorem arguments (hsub : Reports real (sub 0)) : Reports real (Parser.arguments sub) :=
  get.bind fun _ => ite (advance.bind fun _ => (expect _ _).bind fun _ => pure _) (listUntil hsub _ _)

theorem call (hsub : Reports real (sub 0)) : Reports real (Parser.call sub) := by
  have hcall : ∀ name : FunctionName, Reports real
      (do Parser.expect .leftParen "("; return Expr.call name (← Parser.arguments sub)) :=
    fun name => (expect _ _).bind fun _ => (arguments hsub).bind fun _ => pure _
  refine memberName.bind fun first => (accept _).bind fun _ => ite ?_ ?_
  · exact memberName.bind fun second => (pure _).bind hcall
  · exact (pure _).bind hcall

theorem named (hsub : Reports real (sub 0)) : Reports real (Parser.named sub) :=
  get.bind fun _ => ite (call hsub) (memberName.bind fun _ => (pathFrom _).bind fun _ => pure _)

theorem primary (hsub : Reports real (sub 0)) : Reports real (Parser.primary sub) := by
  have hliteral : ∀ value : Value,
      Reports real (do Parser.advance; return Expr.literal value) :=
    fun value => advance.bind fun _ => pure _
  refine ahead (fun _ hc _ => .unexpected hc) fun token => ?_
  dsimp only
  split
  · exact hliteral _
  · exact hliteral _
  · exact hliteral _
  · split
    · exact hliteral _
    · exact unexpected
  · exact advance.bind fun _ => placeholder
  · exact advance.bind fun _ => hsub.bind fun _ => (expect _ _).bind fun _ => pure _
  · exact advance.bind fun _ => (listUntil hsub _ _).bind fun _ => pure _
  · exact advance.bind fun _ => objectBody hsub
  · exact advance.bind fun _ => (pathFrom _).bind fun _ => pure _
  · exact named hsub
  · exact named hsub
  · exact unexpected

theorem signed (hsub : ∀ least, Reports real (sub least)) (sign : Token) :
    Reports real (Parser.signed sub sign) := by
  have hoperand : Reports real (Parser.signed.operand sub sign) :=
    (hsub _).bind fun e => by
      split <;> exact pure _
  exact ahead (fun c hc _ => hoperand c hc) fun number =>
    ite (advance.bind fun _ => pure _) hoperand

theorem operand (hsub : ∀ least, Reports real (sub least)) : Reports real (Parser.operand sub) := by
  have hunary : ∀ (op : UnaryOp) (least : Nat), Reports real
      (do Parser.advance; return Expr.unary op (← sub least)) :=
    fun op least => advance.bind fun _ => (hsub least).bind fun _ => pure _
  refine ahead (fun c hc _ => primary (hsub 0) c hc) fun token => ?_
  dsimp only
  split
  · exact advance.bind fun _ => signed hsub token
  · exact advance.bind fun _ => signed hsub token
  · exact hunary _ _
  · exact hunary _ _
  · exact ite (hunary _ _) (primary (hsub 0))

/-! ## Predicates and operators -/

theorem inList (hsub : ∀ least, Reports real (sub least)) (target : Expr) (negated : Bool) :
    Reports real (Parser.inList sub target negated) := by
  refine peek.bind fun kind => ?_
  split
  · exact advance.bind fun _ => (listUntil (hsub 0) _ _).bind fun _ => pure _
  · refine position_bind fun start hstart => (primary (hsub 0)).bind fun list => ?_
    exact (requireLiterals list hstart).bind fun _ => pure _
  · exact (hsub _).bind fun _ => pure _

theorem predicate (hsub : ∀ least, Reports real (sub least)) (target : Expr) {start : Nat}
    (hstart : start ≤ real.length) : Reports real (Parser.predicate sub target start) := by
  refine (acceptWord _).bind fun negated => ?_
  refine (acceptWord _).bind fun _ => ite (inList hsub target negated) ?_
  refine (acceptWord _).bind fun _ => ite ?_ ?_
  · refine (requireLiterals target hstart).bind fun _ => ?_
    refine position_bind fun rightStart hright => (hsub _).bind fun right => ?_
    exact (requireLiterals right hright).bind fun _ => pure _
  refine (acceptWord _).bind fun _ => ite ?_ ?_
  · refine (hsub _).bind fun pattern => (acceptWord _).bind fun _ => ite ?_ ?_
    · exact ((hsub _).map _).bind fun _ => pure _
    · exact (pure _).bind fun _ => pure _
  refine (acceptWord _).bind fun _ => ite ?_ ?_
  · exact (hsub _).bind fun _ => (expectWord _).bind fun _ => (hsub _).bind fun _ => pure _
  refine (acceptWord _).bind fun _ => ite ?_ ?_
  · exact (hsub _).bind fun _ => pure _
  refine ite unexpected ?_
  exact (expectWord _).bind fun _ => (acceptWord _).bind fun _ => (hsub _).bind fun _ => pure _

theorem operators (hsub : ∀ least, Reports real (sub least)) (least : Nat) {start : Nat}
    (hstart : start ≤ real.length) (bound : Nat) (left : Expr) :
    Reports real (Parser.operators sub least start bound left) := by
  induction bound generalizing left with
  | zero => exact pure _
  | succ bound ih =>
      refine get.bind fun _ => ite (ite (pure _) ?_) ?_
      · exact (predicate hsub left hstart).bind fun e => ih e
      · refine ahead (fun _ hc _ => hc) fun token => ?_
        split
        · exact pure _
        · exact ite (pure _) (advance.bind fun _ => (hsub _).bind fun _ => ih _)

end Operands

/-- By induction on the depth: whatever nests, the expressions inside are less deep. -/
theorem expression (depth least : Nat) : Reports real (Parser.expression depth least) := by
  induction depth generalizing least with
  | zero => exact unexpected
  | succ depth ih =>
      exact position_bind fun start hstart => (operand ih).bind fun left =>
        remaining.bind fun bound => operators ih least hstart bound left

theorem wholeExpression : Reports real Parser.wholeExpression :=
  remaining.bind fun _ => expression _ _

/-! ## Whole sources -/

theorem toEnd (hp : Reports real p) : Reports real (do let a ← p; Parser.expectEnd; return a) :=
  hp.bind fun _ => expectEnd.bind fun _ => pure _

theorem sortKey : Reports real Parser.sortKey :=
  wholeExpression.bind fun _ => (acceptWord _).bind fun _ =>
    ite (pure _) ((acceptWord _).bind fun _ => pure _)

theorem column : Reports real Parser.column := by
  refine wholeExpression.bind fun source => (acceptWord _).bind fun _ => ite ?_ ?_
  · exact aliasName.bind fun _ => pure _
  · split <;> exact pure _

theorem documentPath : Reports real Parser.documentPath := by
  refine position_bind fun start hstart => peek.bind fun kind => ?_
  have hchecked : ∀ path : Path, Reports real (do
      if path.isRoot then
        let done : PUnit ← MonadExcept.throw (ParseError.rootPath start)
        Parser.expectEnd
        return path
      else
        Parser.expectEnd
        return path) := fun path =>
    ite (.bind (failAt rfl hstart rfl) fun _ => expectEnd.bind fun _ => pure _)
      (expectEnd.bind fun _ => pure _)
  split
  · exact advance.bind fun _ => (pathFrom _).bind hchecked
  · exact memberName.bind fun name => (pathFrom _).bind hchecked
  · exact memberName.bind fun name => (pathFrom _).bind hchecked
  · exact unexpected.bind hchecked

/-- The error of a source that can be cut. -/
theorem run {source : String} {eof : Token} {error : ParseError} (hp : Reports real p)
    (hlex : Token.lex source = .ok (real ++ [eof])) (heof : eof.kind = .eof)
    (hreal : ∀ token ∈ real, token.kind ≠ .eof)
    (h : (Parser.run p source).map Prod.fst = .error error) : ∃ place, error.PointsAt real place := by
  have hreports := hp _ (Cursor.Among.ofTokens heof hreal)
  have hrun : Parser.run p source = p (Cursor.ofTokens (real ++ [eof])) := by
    rw [Parser.run, hlex]
    rfl
  rw [hrun] at h
  rw [ReportsAt] at hreports
  cases hresult : p (Cursor.ofTokens (real ++ [eof])) with
  | error found =>
      rw [hresult] at h hreports
      cases h
      exact hreports
  | ok result =>
      rw [hresult] at h
      cases h

end Reports

/-! ## Sources without tokens -/

end DocStore
