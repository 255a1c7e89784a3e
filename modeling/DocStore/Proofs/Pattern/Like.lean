import DocStore.Pattern.Like
import DocStore.Proofs.Pattern.Items
import DocStore.Proofs.Pattern.Matching
import Mathlib

/-!
# What `LIKE` patterns mean

Main statement: `Like.likeMatch_iff_splits`.  A pattern is read in one way only, and where the regular
expression for it is not too large, a text is like it if it can be cut into pieces that fit what has been
read.

On the way from the text of the regular expression to this there are two steps.  The reader of regular
expressions finds in the text the parts of the items, one after the other (`Regex.parse?_source`):
nothing in a literal means anything, and no part takes anything from the next.  What the parts match are
the pieces that fit the items (`Like.exists_matches_iff`).
-/

namespace DocStore

/-! ## The expression of a pattern -/

namespace LikeItem

/-- How an item is written. -/
def source : LikeItem → List Char
  | .literal c => Regex.escaped c
  | .one => ['.']
  | .run => ['.', '*']

/-- What this is read as. -/
def expression : LikeItem → Regex
  | .literal c => .set (.single c)
  | .one => .set .any
  | .run => .repeated (.set .any) 0 none

end LikeItem

namespace Like

variable {escape : Option Char} {items : List LikeItem}

theorem rendered_eq (c : Char) : rendered c = (itemOf c).source := by
  rw [rendered, itemOf]
  split
  · rfl
  · split <;> rfl

/-- The regular expression is made of those for the items. -/
theorem body_eq (escape : Option Char) (pattern : List Char) :
    body escape pattern = (parse escape pattern).flatMap LikeItem.source := by
  fun_induction body escape pattern with
  | case1 => rfl
  | case2 c h => rw [parse, if_pos h, List.flatMap_singleton]; rfl
  | case3 c h => rw [parse, if_neg h, List.flatMap_singleton, rendered_eq]
  | case4 c d rest h ih => rw [parse, if_pos h, List.flatMap_cons, ih]; rfl
  | case5 c d rest h ih => rw [parse, if_neg h, List.flatMap_cons, ih, rendered_eq]

/-- The expressions of the items in a row, from the start of the text to its end. -/
def expression (items : List LikeItem) : Regex :=
  .seq (items.foldl (fun r item => .seq r item.expression) (.seq .empty (.anchor .textStart)))
    (.anchor .textEnd)

end Like

/-! ## Reading the expression -/

namespace Regex

namespace Reader

variable {α β : Type} {alternation : Reader Regex} {bound : Nat} {r p p' : Regex} {c : Char}
  {cs cs' cs'' : List Char}

theorem run_bind {x : Reader α} {f : α → Reader β} {s s' : State} {a : α}
    (h : x.run s = some (a, s')) : (x >>= f).run s = (f a).run s' := by
  rw [StateT.run_bind, h]
  rfl

/-- The flags in force after `(?s)`. -/
def dotAll : Flags := { dotAll := true }

theorem run_skipSpace : skipSpace.run ⟨cs, dotAll⟩ = some ((), ⟨cs, dotAll⟩) := rfl

/-! ### Repetitions -/

/-- No repetition stands next. -/
def Unrepeated (cs : List Char) : Prop := ∀ c ∈ ['*', '+', '?', '\x7b'], cs.head? ≠ some c

theorem run_eat_of_ne (h : cs.head? ≠ some c) :
    (eat c).run ⟨cs, dotAll⟩ = some (false, ⟨cs, dotAll⟩) := by
  show (if cs.head? = some c then _ else _ : Reader Bool).run _ = _
  rw [if_neg h]
  rfl

theorem run_repetition? (h : Unrepeated cs) :
    repetition?.run ⟨cs, dotAll⟩ = some (none, ⟨cs, dotAll⟩) := by
  rw [repetition?, run_bind (run_eat_of_ne (h '*' (by decide)))]
  show StateT.run (eat '+' >>= _) _ = _
  rw [run_bind (run_eat_of_ne (h '+' (by decide)))]
  show StateT.run (eat '?' >>= _) _ = _
  rw [run_bind (run_eat_of_ne (h '?' (by decide)))]
  show StateT.run (eat '\x7b' >>= _) _ = _
  rw [run_bind (run_eat_of_ne (h '\x7b' (by decide)))]
  rfl

theorem run_repeats (h : Unrepeated cs) :
    (repeats bound p).run ⟨cs, dotAll⟩ = some (p, ⟨cs, dotAll⟩) := by
  cases bound with
  | zero => rfl
  | succ bound =>
      rw [repeats, run_bind run_skipSpace, run_bind (run_repetition? h)]
      rfl

theorem run_repeats_star (h : Unrepeated cs) :
    (repeats (bound + 1) p).run ⟨'*' :: cs, dotAll⟩ = some (.repeated p 0 none, ⟨cs, dotAll⟩) := by
  have hstar : repetition?.run ⟨'*' :: cs, dotAll⟩ = some (some (0, none), ⟨cs, dotAll⟩) := rfl
  rw [repeats, run_bind run_skipSpace, run_bind hstar]
  show StateT.run (eat '?' >>= _) _ = _
  rw [run_bind (run_eat_of_ne (h '?' (by decide)))]
  exact run_repeats h

/-! ### Parts -/

/-- A literal that is no metacharacter stands for itself. -/
theorem run_part_of_notMem (h : c ∉ metaChars) :
    (part alternation c).run ⟨cs, dotAll⟩ = some (.expr (.set (.single c)), ⟨cs, dotAll⟩) := by
  simp only [metaChars, List.mem_cons, not_or, List.not_mem_nil] at h
  simp [part, h, fold, dotAll]

/-- A metacharacter does so behind a backslash. -/
theorem run_part_backslash (h : c ∈ metaChars) :
    (part alternation '\\').run ⟨c :: cs, dotAll⟩
      = some (.expr (.set (.single c)), ⟨cs, dotAll⟩) := by
  have hescapes : ∀ c ∈ metaChars,
      escape.run ⟨c :: cs, dotAll⟩ = some (.char c, ⟨cs, dotAll⟩) := by
    rw [metaChars]
    repeat refine List.forall_mem_cons.mpr ⟨rfl, ?_⟩
    exact List.forall_mem_nil _
  rw [part, run_bind (hescapes c h)]
  rfl

/-- The reader takes a part and its repetition, and goes on behind it. -/
theorem run_sequence (hbar : c ≠ '|') (hclose : c ≠ ')')
    (hpart : (part alternation c).run ⟨cs, dotAll⟩ = some (.expr p, ⟨cs', dotAll⟩))
    (hrepeats : (repeats cs'.length p).run ⟨cs', dotAll⟩ = some (p', ⟨cs'', dotAll⟩)) :
    (sequence alternation (bound + 1) r).run ⟨c :: cs, dotAll⟩
      = (sequence alternation bound (.seq r p')).run ⟨cs'', dotAll⟩ := by
  have hpeek : peek?.run ⟨c :: cs, dotAll⟩ = some (some c, ⟨c :: cs, dotAll⟩) := rfl
  have hdrop : (drop 1).run ⟨c :: cs, dotAll⟩ = some ((), ⟨cs, dotAll⟩) := rfl
  have hremaining : remaining.run ⟨cs', dotAll⟩ = some (cs'.length, ⟨cs', dotAll⟩) := rfl
  rw [sequence, run_bind run_skipSpace, run_bind hpeek]
  split
  · next heq => cases heq
  · next heq => exact absurd (Option.some.inj heq) hbar
  · next heq => exact absurd (Option.some.inj heq) hclose
  · next heq =>
      cases heq
      rw [run_bind hdrop, run_bind hpart]
      dsimp only
      rw [run_bind hremaining, run_bind hrepeats]

theorem run_sequence_item (item : LikeItem) (h : Unrepeated cs) :
    (sequence alternation (bound + 1) r).run ⟨item.source ++ cs, dotAll⟩
      = (sequence alternation bound (.seq r item.expression)).run ⟨cs, dotAll⟩ := by
  cases item with
  | literal c =>
      rw [LikeItem.source, escaped]
      split
      · next hmeta =>
          have hmeta := List.contains_iff_mem.mp hmeta
          exact run_sequence (by decide) (by decide) (run_part_backslash hmeta) (run_repeats h)
      · next hmeta =>
          have hmeta : c ∉ metaChars := fun hmem => hmeta (List.contains_iff_mem.mpr hmem)
          have hbar : c ≠ '|' := by rintro rfl; exact hmeta (by decide)
          have hclose : c ≠ ')' := by rintro rfl; exact hmeta (by decide)
          exact run_sequence hbar hclose (run_part_of_notMem hmeta) (run_repeats h)
  | one => exact run_sequence (by decide) (by decide) rfl (run_repeats h)
  | run => exact run_sequence (by decide) (by decide) rfl (run_repeats_star h)

/-- No item starts like a repetition of the one before it. -/
theorem unrepeated_items (items : List LikeItem) :
    Unrepeated (items.flatMap LikeItem.source ++ ['$']) := by
  cases items with
  | nil => simp [Unrepeated]
  | cons item items =>
      rw [List.flatMap_cons, List.append_assoc]
      cases item with
      | literal c =>
          rw [LikeItem.source, escaped]
          split
          · simp [Unrepeated]
          · next hmeta =>
              rintro d hd heq
              obtain rfl : c = d := Option.some.inj heq
              have hall : ['*', '+', '?', '\x7b'].all metaChars.contains = true := rfl
              exact hmeta (List.all_eq_true.mp hall c hd)
      | one => simp [Unrepeated, LikeItem.source]
      | run => simp [Unrepeated, LikeItem.source]

theorem run_sequence_nil : (sequence alternation bound r).run ⟨[], dotAll⟩ = some (r, ⟨[], dotAll⟩) := by
  cases bound <;> rfl

/-- The reader goes through the items to the end of the text. -/
theorem run_sequence_items {items : List LikeItem} (h : items.length < bound) :
    (sequence alternation bound r).run ⟨items.flatMap LikeItem.source ++ ['$'], dotAll⟩
      = some (.seq (items.foldl (fun r item => .seq r item.expression) r) (.anchor .textEnd),
        ⟨[], dotAll⟩) := by
  -- One round for each item, and one for the anchor behind them.
  obtain ⟨bound, rfl⟩ := Nat.exists_eq_add_one_of_ne_zero (Nat.ne_of_gt (Nat.zero_lt_of_lt h))
  induction items generalizing bound r with
  | nil =>
      have hend : Unrepeated [] := by simp [Unrepeated]
      rw [List.flatMap_nil, List.nil_append,
        run_sequence (by decide) (by decide) rfl (run_repeats hend), run_sequence_nil]
      rfl
  | cons item items ih =>
      rw [List.flatMap_cons, List.append_assoc, run_sequence_item item (unrepeated_items items)]
      obtain ⟨bound, rfl⟩ := Nat.exists_eq_add_one_of_ne_zero
        (Nat.ne_of_gt (Nat.zero_lt_of_lt (Nat.lt_of_succ_lt_succ h)))
      exact ih bound (Nat.lt_of_succ_lt_succ h)

/-- The setting of the flag is no part. -/
theorem run_sequence_flags (h : Unrepeated cs) :
    (sequence alternation (bound + 1) r).run ⟨'(' :: '?' :: 's' :: ')' :: cs, {}⟩
      = (sequence alternation bound r).run ⟨cs, dotAll⟩ := by
  have hpart : (part alternation '(').run ⟨'?' :: 's' :: ')' :: cs, {}⟩
      = some (.flags, ⟨cs, dotAll⟩) := rfl
  have hpeek : (skipSpace >>= fun _ => peek?).run ⟨'(' :: '?' :: 's' :: ')' :: cs, {}⟩
      = some (some '(', ⟨'(' :: '?' :: 's' :: ')' :: cs, {}⟩) := rfl
  have hdrop : (drop 1).run ⟨'(' :: '?' :: 's' :: ')' :: cs, {}⟩
      = some ((), ⟨'?' :: 's' :: ')' :: cs, {}⟩) := rfl
  rw [sequence, ← bind_assoc, run_bind hpeek]
  show StateT.run (drop 1 >>= _) _ = _
  rw [run_bind hdrop, run_bind hpart]
  dsimp only
  rw [run_bind run_skipSpace, run_bind (run_repetition? h)]
  rfl

theorem length_le_length_source (items : List LikeItem) :
    items.length ≤ (items.flatMap LikeItem.source).length := by
  induction items with
  | nil => exact Nat.le_refl _
  | cons item items ih =>
      have hpos : 0 < item.source.length := by
        cases item with
        | literal c =>
            rw [LikeItem.source, escaped]
            split <;> exact Nat.succ_pos _
        | one => exact Nat.succ_pos _
        | run => exact Nat.succ_pos _
      rw [List.flatMap_cons, List.length_append, List.length_cons]
      omega

/-- What stands around the items is read as the two anchors. -/
theorem run_alternation (items : List LikeItem) (depth : Nat) :
    (Reader.alternation (depth + 1)).run
        ⟨'(' :: '?' :: 's' :: ')' :: '^' :: (items.flatMap LikeItem.source ++ ['$']), {}⟩
      = some (Like.expression items, ⟨[], dotAll⟩) := by
  have hitems := unrepeated_items items
  have hbound : items.length < (items.flatMap LikeItem.source ++ ['$']).length + 3 := by
    rw [List.length_append]
    exact Nat.lt_add_right _ (Nat.lt_succ_of_le (length_le_length_source items))
  generalize hsource : items.flatMap LikeItem.source ++ ['$'] = cs at hitems hbound ⊢
  have hanchor : Unrepeated ('^' :: cs) := by simp [Unrepeated]
  have hsequence : (sequence (Reader.alternation depth) (cs.length + 5) .empty).run
      ⟨'(' :: '?' :: 's' :: ')' :: '^' :: cs, {}⟩ = some (Like.expression items, ⟨[], dotAll⟩) := by
    rw [run_sequence_flags hanchor, run_sequence (by decide) (by decide) rfl (run_repeats hitems),
      ← hsource, run_sequence_items (hsource ▸ hbound)]
    rfl
  have hremaining : remaining.run ⟨'(' :: '?' :: 's' :: ')' :: '^' :: cs, {}⟩
      = some (cs.length + 5, ⟨'(' :: '?' :: 's' :: ')' :: '^' :: cs, {}⟩) := rfl
  have hbar : (eat '|').run ⟨[], dotAll⟩ = some (false, ⟨[], dotAll⟩) := rfl
  rw [Reader.alternation, run_bind hremaining, alternatives, run_bind hremaining, run_bind hsequence,
    run_bind hbar]
  rfl

end Reader

/-- The text is read as the items in a row, if there are not too many. -/
theorem parse?_source (pattern : String) (escape : Option Char) :
    parse? (Like.source pattern escape)
      = if (Like.expression (Like.parse escape pattern.toList)).size ≤ greatestSize then
          some (Like.expression (Like.parse escape pattern.toList))
        else none := by
  have htext : (Like.source pattern escape).toList = '(' :: '?' :: 's' :: ')' :: '^' ::
      ((Like.parse escape pattern.toList).flatMap LikeItem.source ++ ['$']) := by
    have hbody := @String.toList_ofList (Like.body escape pattern.toList)
    rw [Like.source, String.toList_append, String.toList_append, hbody, Like.body_eq]
    rfl
  rw [parse?, htext, Reader.run_alternation]
  simp

end Regex

/-! ## Matching the expression -/

variable {text : List Char} {p q : Place}

namespace LikeItem

variable {item : LikeItem}

/-- As many characters as one likes. -/
theorem exists_steps_iff (hp : p.Of text) (hq : q.Of text) :
    (∃ n, Regex.Steps (Regex.set .any).Matches n p q) ↔ ∃ piece, piece ++ q.rest = p.rest := by
  constructor
  · rintro ⟨n, hsteps⟩
    induction n generalizing p with
    | zero => exact ⟨[], congrArg Place.rest hsteps.symm⟩
    | succ n ih =>
        obtain ⟨middle, hfirst, hmore⟩ := hsteps
        have hmiddle := (hp.pass? hfirst).1
        obtain ⟨c, -, hrest⟩ := (hp.pass?_eq_some_iff hmiddle).mp hfirst
        obtain ⟨piece, hpiece⟩ := ih hmiddle hmore
        exact ⟨c :: piece, by rw [hrest, ← hpiece, List.cons_append]⟩
  · rintro ⟨piece, hpiece⟩
    induction piece generalizing p with
    | nil => exact ⟨0, hp.eq_of_rest hq hpiece.symm⟩
    | cons c piece ih =>
        have hsplit : [c] ++ (piece ++ q.rest) = p.rest := hpiece
        obtain ⟨middle, hmiddle, hrest⟩ := hp.exists_of_append hsplit
        obtain ⟨n, hsteps⟩ := ih hmiddle hrest.symm
        refine ⟨n + 1, middle, (hp.pass?_eq_some_iff hmiddle).mpr ⟨c, rfl, ?_⟩, hsteps⟩
        rw [← hpiece, hrest, List.cons_append]

/-- What an item is written as matches the pieces that fit it. -/
theorem matches_iff (hp : p.Of text) (hq : q.Of text) :
    item.expression.Matches p q ↔ ∃ piece, item.Fits piece ∧ piece ++ q.rest = p.rest := by
  cases item with
  | literal c =>
      simp only [expression, Regex.Matches, hp.pass?_eq_some_iff hq, CharSet.contains_single,
        exists_eq_left,
        fits_literal_iff, List.singleton_append]
      exact eq_comm
  | one =>
      simp only [expression, Regex.Matches, hp.pass?_eq_some_iff hq, fits_one_iff]
      constructor
      · rintro ⟨c, -, hrest⟩
        exact ⟨[c], ⟨c, rfl⟩, hrest.symm⟩
      · rintro ⟨_, ⟨c, rfl⟩, hrest⟩
        exact ⟨c, rfl, hrest.symm⟩
  | run =>
      rw [expression, Regex.Matches]
      have hsteps := exists_steps_iff hp hq
      constructor
      · rintro ⟨n, -, -, h⟩
        obtain ⟨piece, hpiece⟩ := hsteps.mp ⟨n, h⟩
        exact ⟨piece, .run piece, hpiece⟩
      · rintro ⟨piece, -, hpiece⟩
        obtain ⟨n, h⟩ := hsteps.mpr ⟨piece, hpiece⟩
        exact ⟨n, Nat.zero_le n, fun most hmost => absurd hmost (Option.not_mem_none most), h⟩

end LikeItem

namespace Like

variable {escape : Option Char} {items : List LikeItem}

theorem matches_foldl_iff {r : Regex} (hp : p.Of text) (hq : q.Of text) :
    (items.foldl (fun r item => .seq r item.expression) r).Matches p q
      ↔ ∃ middle, r.Matches p middle ∧ Leaves items middle.rest q.rest := by
  induction items generalizing r with
  | nil =>
      simp only [List.foldl_nil, leaves_nil]
      constructor
      · exact fun h => ⟨q, h, rfl⟩
      · rintro ⟨middle, h, hrest⟩
        have hmiddle := (Regex.Advances.of_matches text r p middle hp h).1
        exact hq.eq_of_rest hmiddle hrest ▸ h
  | cons item items ih =>
      rw [List.foldl_cons, ih]
      simp only [leaves_cons, Regex.Matches]
      constructor
      · rintro ⟨next, ⟨middle, h, hitem⟩, hleaves⟩
        have hmiddle := (Regex.Advances.of_matches text r p middle hp h).1
        have hnext := (Regex.Advances.of_matches text _ middle next hmiddle hitem).1
        exact ⟨middle, h, next.rest, (LikeItem.matches_iff hmiddle hnext).mp hitem, hleaves⟩
      · rintro ⟨middle, h, rest, ⟨piece, hfits, hpiece⟩, hleaves⟩
        have hmiddle := (Regex.Advances.of_matches text r p middle hp h).1
        obtain ⟨next, hnext, rfl⟩ := hmiddle.exists_of_append hpiece
        exact ⟨next, ⟨middle, h, (LikeItem.matches_iff hmiddle hnext).mpr ⟨piece, hfits, hpiece⟩⟩,
          hleaves⟩

/-- The expression of a pattern matches the texts that can be cut into pieces that fit its items. -/
theorem exists_matches_iff :
    (∃ p q, p.Of text ∧ (expression items).Matches p q) ↔ Splits items text := by
  rw [← leaves_empty_iff]
  constructor
  · rintro ⟨p, q, hp, last, hitems, hend, hlast⟩
    obtain rfl : last = q := hlast
    have hq := (Regex.Advances.of_matches text _ p _ hp hitems).1
    obtain ⟨_, ⟨_, rfl, hstart, rfl⟩, hleaves⟩ := (matches_foldl_iff hp hq).mp hitems
    -- Nothing is before the first place, and nothing after the last.
    obtain ⟨before, htext, -, hbefore⟩ := hp
    have hstart : before.getLast? = none := hbefore ▸ Option.isNone_iff_eq_none.mp hstart
    have hend : last.rest = [] := List.isEmpty_iff.mp hend
    rw [List.getLast?_eq_none_iff.mp hstart, List.nil_append] at htext
    rwa [hend, ← htext] at hleaves
  · intro hleaves
    have hp : (Place.start text).Of text := ⟨[], rfl, rfl, rfl⟩
    obtain ⟨q, hq, hend⟩ := hp.exists_of_append (List.append_nil text)
    have hstart : (Regex.seq .empty (.anchor .textStart)).Matches (.start text) (.start text) :=
      ⟨_, rfl, rfl, rfl⟩
    have hitems := (matches_foldl_iff hp hq).mpr ⟨_, hstart, hend ▸ hleaves⟩
    exact ⟨_, q, hp, q, hitems, List.isEmpty_iff.mpr hend, rfl⟩

/-- As far as its expression is not too large, a pattern is matched by cutting the text into pieces that
fit its items. -/
theorem likeMatch_eq (text pattern : String) (escape : Option Char) :
    likeMatch text pattern escape
      = if (expression (parse escape pattern.toList)).size ≤ Regex.greatestSize then
          .ok (isMatch (parse escape pattern.toList) text.toList)
        else .error Regex.invalid := by
  rw [likeMatch, Regex.compile, Regex.parse?_source]
  by_cases hsize : (expression (parse escape pattern.toList)).size ≤ Regex.greatestSize
  · rw [if_pos hsize, if_pos hsize]
    have hmatch : (expression (parse escape pattern.toList)).isMatch text = true
        ↔ isMatch (parse escape pattern.toList) text.toList = true :=
      Regex.isMatch_iff.trans (exists_matches_iff.trans isMatch_iff_splits.symm)
    exact congrArg Except.ok (Bool.eq_iff_iff.mpr hmatch)
  · rw [if_neg hsize, if_neg hsize]
    rfl

/-- A pattern is read in one way, and whenever a text is compared with it, the text is like it exactly if
it can be cut into consecutive pieces that fit what has been read. -/
theorem likeMatch_iff_splits (text pattern : String) (escape : Option Char) :
    ∃ items, (∀ other, Reads escape pattern.toList other ↔ other = items) ∧
      ∀ matched, likeMatch text pattern escape = .ok matched →
        (matched = true ↔ Splits items text.toList) := by
  refine ⟨parse escape pattern.toList, fun _ => reads_iff, fun matched h => ?_⟩
  rw [likeMatch_eq] at h
  split at h
  · cases h
    exact isMatch_iff_splits
  · cases h

/-- An escaped `%` is a character like any other, and one that is not takes the end of a line. -/
theorem likeMatch_iff_splits_percent :
    likeMatch "5.%\n*" "__!%%" (some '!') = .ok true
      ∧ Splits [.one, .one, .literal '%', .run] "5.%\n*".toList := by
  have hlike : likeMatch "5.%\n*" "__!%%" (some '!') = .ok true := by cbv
  obtain ⟨items, hreads, hmatched⟩ := likeMatch_iff_splits "5.%\n*" "__!%%" (some '!')
  obtain rfl := (hreads [.one, .one, .literal '%', .run]).mp (reads_iff.mpr rfl)
  exact ⟨hlike, (hmatched true hlike).mp rfl⟩

/-- With `%` for the escape character there is no run in a pattern.  Otherwise a run takes the ends of
lines and all that means something in a regular expression. -/
example : likeMatch "%.*\n$" "%%_%" (some '%') = .ok false
    ∧ likeMatch "%.*\n%" "%%.*_%" (some '%') = .ok true
    ∧ likeMatch "50% (.*)\n" "__!% %" (some '!') = .ok true := by
  refine ⟨?_, ?_, ?_⟩ <;> cbv

end Like

end DocStore
