import DocStore.Client.Collection
import DocStore.Proofs.Expr.Operand
import DocStore.Proofs.Text.Case

/-!
# The condition of a lookup

A statement about a single document is one about the condition `_id = :id`, the identifier being
bound to the placeholder.  Main statement: `parse_idCondition`.  The condition is not canonical text,
so what the parser makes of it is put together here part by part.
-/

namespace DocStore

open DocStore.Parser

/-- The condition that a document has the identifier bound to `id`, as text. -/
def idCondition : String := "_id = :id"

/-! ## The condition -/

/-- The lexemes of the condition. -/
def idLexemes : List Lexeme := [.word "_id", ⟨.equals, "="⟩, ⟨.colon, ":"⟩, .placeholder "id"]

theorem isKeyword_idField : isKeyword "_id" = false := isKeyword_eq_false (by simp) (by decide)

theorem lexes_idCondition : Lexes idCondition.toList idLexemes := by
  have hname : Lexes ('i' :: (['d'] ++ [])) [.placeholder "id"] :=
    Lexes.word rfl (List.forall_mem_singleton.mpr rfl) rfl Lexes.nil
  have hcolon : Lexes [' ', ':', 'i', 'd'] [⟨.colon, ":"⟩, .placeholder "id"] :=
    Lexes.blank (c := ' ') rfl (Lexes.symbol (c := ':') (fun _ => rfl) hname)
  have hequals : Lexes (' ' :: '=' :: ([] ++ [' ', ':', 'i', 'd']))
      [⟨.equals, "="⟩, ⟨.colon, ":"⟩, .placeholder "id"] :=
    Lexes.blank (c := ' ') rfl (Lexes.operator rfl (.inl (by decide)) hcolon)
  exact Lexes.plainName (w := "_id") rfl rfl hequals

theorem filter_idCondition :
    Parses Parser.filter ⟨idLexemes, []⟩ Collection.idFilter ⟨[], ["id"]⟩ := by
  have hcall : startsCall (Ahead.cursor ⟨idLexemes, []⟩) = false := rfl
  have hfield : Parses (Parser.operand (Parser.expression 4)) ⟨idLexemes, []⟩
      (.field (.ofMember idField)) ⟨idLexemes.tail, []⟩ :=
    Parses.operand_name isKeyword_idField hcall rfl
  have hnumbered : NumberedFrom [] (Expr.placeholder "id" 0).nodes := by
    refine ⟨fun name position h => ?_, trivial⟩
    cases h
    rfl
  -- The placeholder is the first of the condition.
  have hplaceholder : Parses (Parser.expression 4 (rightPower .eq)) ⟨idLexemes.tail.tail, []⟩
      (.placeholder "id" 0) ⟨[], ["id"]⟩ :=
    (reads_placeholder (.inl ⟨rfl, by simp⟩)).closed (by decide) trivial hnumbered
  have hequals : binaryOp? (Lexeme.token ⟨.equals, "="⟩) = some .eq := rfl
  have hwhole : Parses (Parser.expression 5 0) ⟨idLexemes, []⟩ Collection.idFilter ⟨[], ["id"]⟩ :=
    Parses.expression hfield fun _ => Parses.operators_operator hequals rfl (by decide) hplaceholder
      (Closes.stops trivial) (by decide)
  exact Parses.filter hwhole

theorem parse_idCondition : Expr.parse idCondition = .ok Collection.idFilter :=
  Parses.run lexes_idCondition filter_idCondition

/-! ## Statements about the condition -/

theorem Bindings.normalize_id : normalize "id" = "id" := by
  have hname : "id".toList.dropWhile (· == ':') = ['i', 'd'] := by decide
  rw [normalize, hname]
  exact Text.lower_eq_self (by simp)

namespace Collection

variable (c : Collection) (id : Value)

theorem find_idCondition :
    (c.find idCondition).map (fun s => s.bind "id" id) = .ok (c.byId id) := by
  rw [find, parse_idCondition]
  rfl

theorem conditional_idCondition {purpose : Purpose} :
    (c.conditional idCondition).map (fun s : Statement purpose => s.bind "id" id)
      = .ok (c.byId id) := by
  have htext : Statement.requireText "condition" idCondition = .ok idCondition := rfl
  rw [conditional, htext]
  show ((Statement.readText (Expr.parse idCondition) >>= fun e => _).map _) = _
  rw [parse_idCondition]
  rfl

end Collection

end DocStore
