import DocStore.Proofs.Expr.Canonical
import DocStore.Proofs.Expr.Group

/-!
# Reading canonical text back

Main statement: `Expr.parse_text`, the canonical text of a printable tree that is numbered by first
appearance is read as that tree.

The lexer cuts the text into the lexemes of the tree, and every node of a printable tree is an
operand (`Expr.Printable.reads`, by induction over the tree, with one lemma for each kind of node).
-/

namespace DocStore

open DocStore.Parser

namespace Expr

/-- Every printable tree is read as an operand. -/
theorem Printable.reads {e : Expr} (he : e.Printable) : Reads e := by
  induction e using children_induction with
  | step e ih =>
      cases e with
      | literal value => exact reads_literal he
      | field path => exact reads_field he
      | placeholder name position => exact reads_placeholder he
      | unary op operand => exact reads_unary he.1 he.2 (ih operand (by simp [children]) he.1)
      | binary op left right =>
          obtain ⟨hleft, hright⟩ := he
          exact reads_binary (ih left (by simp [children]) hleft)
            (ih right (by simp [children]) hright)
      | call f args =>
          obtain ⟨hf, hstar | hargs⟩ := he
          · exact reads_call hf (.inl hstar)
          · refine reads_call hf (.inr fun e hmem => ?_)
            have he := allPrintable_iff.mp hargs e hmem
            exact ⟨he, ih e hmem he⟩
      | star => cases he
      | isIn target list negated form =>
          obtain ⟨htarget, hlist, hform⟩ := he
          have htarget := ih target (by simp [children]) htarget
          have hlist : ∀ e ∈ list, e.Printable ∧ Reads e := fun e hmem =>
            have he := allPrintable_iff.mp hlist e hmem
            ⟨he, ih e (List.mem_cons_of_mem _ hmem) he⟩
          cases form with
          | paren => exact reads_isIn_paren htarget hlist
          | bracket => exact reads_isIn_bracket htarget hlist hform
          | container =>
              obtain ⟨operand, rfl, hgrouped⟩ := hform
              obtain ⟨hprintable, hoperand⟩ := hlist operand List.mem_cons_self
              exact reads_isIn_container htarget hoperand hprintable hgrouped
      | overlaps left right negated =>
          obtain ⟨hleft, hright, hleftLiterals, hrightLiterals⟩ := he
          exact reads_overlaps (ih left (by simp [children]) hleft)
            (ih right (by simp [children]) hright) hleftLiterals hrightLiterals
      | like target pattern escape negated =>
          obtain ⟨htarget, hpattern, hescape⟩ := he
          refine reads_like (ih target (by simp [children]) htarget)
            (ih pattern (by simp [children]) hpattern) ?_
          rintro escape rfl
          exact ih escape (by simp [children]) hescape
      | between target low high negated =>
          obtain ⟨htarget, hlow, hhigh⟩ := he
          exact reads_between (ih target (by simp [children]) htarget)
            (ih low (by simp [children]) hlow) (ih high (by simp [children]) hhigh)
      | isValue target value negated =>
          obtain ⟨htarget, hvalue⟩ := he
          exact reads_isValue (ih target (by simp [children]) htarget)
            (ih value (by simp [children]) hvalue) hvalue
      | regexp target pattern negated =>
          obtain ⟨htarget, hpattern⟩ := he
          exact reads_regexp (ih target (by simp [children]) htarget)
            (ih pattern (by simp [children]) hpattern)
      | array items =>
          refine reads_array fun e hmem => ?_
          have he := allPrintable_iff.mp he e hmem
          exact ⟨he, ih e hmem he⟩
      | object fields =>
          refine reads_object fun field hmem => ?_
          obtain ⟨hkey, hvalue⟩ := fieldsPrintable_iff.mp he field hmem
          exact ⟨hkey, ih field.2 (List.mem_map_of_mem hmem) hvalue⟩

end Expr

end DocStore
