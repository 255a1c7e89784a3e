import DocStore.Proofs.Expr.Printable
import Mathlib.Data.List.Basic

/-!
# Numbering placeholders while reading

A parser numbers a placeholder when it comes to it, by the names that it has met so far.  In a tree
that is numbered by the order of first appearance this gives the same numbers
(`Expr.Numbered.numberedFrom`), since names that come later take later places.
-/

namespace DocStore

/-- The names met once another one has been. -/
def meet (names : List String) (name : String) : List String :=
  if names.contains name then names else names ++ [name]

/-- The names met once these nodes have been read. -/
def namesAfter (names : List String) (nodes : List Expr) : List String :=
  (nodes.filterMap Expr.placeholderName?).foldl meet names

variable {names : List String} {name : String} {node : Expr} {nodes more : List Expr}

theorem namesAfter_append (names : List String) (nodes more : List Expr) :
    namesAfter names (nodes ++ more) = namesAfter (namesAfter names nodes) more := by
  rw [namesAfter, List.filterMap_append, List.foldl_append]
  rfl

theorem namesAfter_cons (names : List String) (node : Expr) (nodes : List Expr) :
    namesAfter names (node :: nodes) = namesAfter (namesAfter names [node]) nodes :=
  namesAfter_append names [node] nodes

theorem namesAfter_placeholder (position : UInt32) :
    namesAfter names [.placeholder name position] = meet names name := rfl

theorem namesAfter_of_none (h : node.placeholderName? = none) :
    namesAfter names [node] = names := by
  rw [namesAfter, List.filterMap_cons_none h]
  rfl

theorem meet_of_mem (h : name ∈ names) : meet names name = names := by
  rw [meet, if_pos (List.contains_iff_mem.mpr h)]

theorem meet_of_not_mem (h : name ∉ names) : meet names name = names ++ [name] := by
  rw [meet, if_neg (mt List.contains_iff_mem.mp h)]

theorem mem_meet : name ∈ meet names name := by
  by_cases h : name ∈ names
  · rwa [meet_of_mem h]
  · rw [meet_of_not_mem h]
    simp

theorem mem_of_mem_meet {other : String} (h : name ∈ meet names other) :
    name ∈ names ∨ name = other := by
  rw [meet] at h
  split at h
  · exact .inl h
  · simpa using h

/-- Only placeholders bring names. -/
theorem exists_placeholder_of_mem (h : name ∈ namesAfter names nodes) :
    name ∈ names ∨ ∃ position, .placeholder name position ∈ nodes := by
  induction nodes generalizing names with
  | nil => exact .inl h
  | cons node rest ih =>
      rw [namesAfter_cons] at h
      rcases ih h with h | ⟨position, hmem⟩
      · cases node with
        | placeholder other position =>
            rw [namesAfter_placeholder] at h
            rcases mem_of_mem_meet h with h | rfl
            · exact .inl h
            · exact .inr ⟨position, List.mem_cons_self⟩
        | _ => exact .inl h
      · exact .inr ⟨position, List.mem_cons_of_mem _ hmem⟩

/-- Names keep their places. -/
theorem prefix_namesAfter (names : List String) (nodes : List Expr) :
    names <+: namesAfter names nodes := by
  rw [namesAfter]
  induction nodes.filterMap Expr.placeholderName? generalizing names with
  | nil => exact List.prefix_rfl
  | cons name rest ih =>
      have hmeet : names <+: meet names name := by
        rw [meet]
        split
        · exact List.prefix_rfl
        · exact List.prefix_append names [name]
      exact hmeet.trans (ih _)

/-- The placeholders have the numbers that reading the nodes in order gives them. -/
def NumberedFrom : List String → List Expr → Prop
  | _, [] => True
  | names, node :: rest =>
    (∀ name position, node = .placeholder name position →
      position = UInt32.ofNat ((meet names name).idxOf name))
    ∧ NumberedFrom (namesAfter names [node]) rest

theorem numberedFrom_append :
    NumberedFrom names (nodes ++ more)
      ↔ NumberedFrom names nodes ∧ NumberedFrom (namesAfter names nodes) more := by
  induction nodes generalizing names with
  | nil => exact (and_iff_right trivial).symm
  | cons node rest ih =>
      rw [List.cons_append, NumberedFrom, NumberedFrom, ih, ← namesAfter_cons, and_assoc]

theorem Expr.Numbered.numberedFrom {e : Expr} (h : e.Numbered) : NumberedFrom [] e.nodes := by
  -- Over any names met before, so that the induction can pass a node by.
  suffices hall : ∀ nodes names, (∀ name position, Expr.placeholder name position ∈ nodes →
      position = UInt32.ofNat ((namesAfter names nodes).idxOf name)) → NumberedFrom names nodes from
    hall e.nodes [] h
  intro nodes
  induction nodes with
  | nil => exact fun _ _ => trivial
  | cons node rest ih =>
      intro names hnodes
      refine ⟨?_, ih _ fun name position hmem => ?_⟩
      · rintro name position rfl
        have hposition := hnodes name position List.mem_cons_self
        rw [namesAfter_cons, namesAfter_placeholder] at hposition
        obtain ⟨later, hlater⟩ := prefix_namesAfter (meet names name) rest
        rw [← hlater, List.idxOf_append_of_mem mem_meet] at hposition
        exact hposition
      · have hposition := hnodes name position (List.mem_cons_of_mem _ hmem)
        rwa [namesAfter_cons] at hposition

end DocStore
