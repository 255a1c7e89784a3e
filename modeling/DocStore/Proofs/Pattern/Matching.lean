import DocStore.Pattern.Regex

/-!
# What regular expressions match

Main statement: `Regex.isMatch_iff`.  `Regex.Matches` says from which place of a text to which other one
an expression matches.  The matcher, which knows sets of places only, finds all that matches lead to, and
no others.

Repetitions are where it does not try everything: it takes no more rounds than there are places left.
This is enough, because no match goes back (`Advances`), so rounds that stay in their place can be left
out (`Steps.shorten`).
-/

namespace DocStore

variable {text before rest : List Char} {p q : Place} {places more : List Place}

theorem CharSet.contains_single {c d : Char} : (single c).contains d = true ↔ d = c := by
  rw [single, contains, Bool.and_eq_true, decide_eq_true_iff, decide_eq_true_iff]
  exact ⟨fun h => Char.le_antisymm h.2 h.1, fun h => h ▸ ⟨Char.le_refl _, Char.le_refl _⟩⟩

/-! ## Places of a text -/

namespace Place

/-- The place is in the text. -/
def Of (text : List Char) (p : Place) : Prop :=
  ∃ before, text = before ++ p.rest ∧ p.index = before.length ∧ p.before = before.getLast?

namespace Of

theorem length (h : p.Of text) : text.length = p.index + p.rest.length := by
  obtain ⟨before, rfl, hindex, -⟩ := h
  rw [List.length_append, hindex]

/-- A place is known by the number of characters before it. -/
theorem eq_of_index (hp : p.Of text) (hq : q.Of text) (h : p.index = q.index) : p = q := by
  obtain ⟨before, htext, hindex, hlast⟩ := hp
  obtain ⟨before', htext', hindex', hlast'⟩ := hq
  obtain ⟨rfl, hrest⟩ := List.append_inj (htext.symm.trans htext') (by rw [← hindex, ← hindex', h])
  cases p
  cases q
  simp_all

/-- Or by those after it. -/
theorem eq_of_rest (hp : p.Of text) (hq : q.Of text) (h : p.rest = q.rest) : p = q := by
  refine hp.eq_of_index hq ?_
  have hlength := hp.length
  have hlength' := hq.length
  rw [h] at hlength
  omega

/-- There is a place in front of every end of what comes after a place. -/
theorem exists_of_append (hp : p.Of text) (h : before ++ rest = p.rest) :
    ∃ q : Place, q.Of text ∧ q.rest = rest := by
  obtain ⟨front, htext, -, -⟩ := hp
  have hsplit : text = front ++ before ++ rest := by rw [htext, ← h, List.append_assoc]
  exact ⟨⟨(front ++ before).length, (front ++ before).getLast?, rest⟩, ⟨_, hsplit, rfl, rfl⟩, rfl⟩

theorem pass? {s : CharSet} (hp : p.Of text) (h : p.pass? s = some q) :
    q.Of text ∧ p.index ≤ q.index := by
  obtain ⟨before, htext, hindex, -⟩ := hp
  rw [Place.pass?] at h
  split at h
  · next c rest hrest =>
      split at h
      · cases h
        refine ⟨⟨before ++ [c], ?_, ?_, ?_⟩, Nat.le_succ _⟩
        · rw [htext, hrest, List.append_assoc, List.singleton_append]
        · rw [List.length_append, hindex, List.length_singleton]
        · rw [List.getLast?_concat]
      · cases h
  · cases h

theorem pass?_eq_some_iff {s : CharSet} (hp : p.Of text) (hq : q.Of text) :
    p.pass? s = some q ↔ ∃ c, s.contains c = true ∧ p.rest = c :: q.rest := by
  constructor
  · intro h
    rw [Place.pass?] at h
    split at h
    · next c rest hrest =>
        split at h
        · next hc =>
            cases h
            exact ⟨c, hc, hrest⟩
        · cases h
    · cases h
  · rintro ⟨c, hc, hrest⟩
    have hpass : p.pass? s = some ⟨p.index + 1, some c, q.rest⟩ := by
      rw [Place.pass?, hrest]
      exact if_pos hc
    rw [hpass, (hp.pass? hpass).1.eq_of_rest hq rfl]

end Of

theorem mem_onward_go : q ∈ onward.go before.length before.getLast? rest
    ↔ ∃ more, rest = more ++ q.rest ∧ q.index = (before ++ more).length
      ∧ q.before = (before ++ more).getLast? := by
  induction rest generalizing before with
  | nil =>
      rw [onward.go, List.mem_singleton]
      constructor
      · rintro rfl
        exact ⟨[], rfl, by rw [List.append_nil], by rw [List.append_nil]⟩
      · rintro ⟨more, hrest, hindex, hlast⟩
        obtain ⟨rfl, hnil⟩ := List.append_eq_nil_iff.mp hrest.symm
        rw [List.append_nil] at hindex hlast
        cases q
        cases hnil
        cases hindex
        cases hlast
        rfl
  | cons c rest ih =>
      have hnext := @ih (before ++ [c])
      rw [List.length_append, List.length_singleton, List.getLast?_concat] at hnext
      rw [onward.go, List.mem_cons, hnext]
      constructor
      · rintro (rfl | ⟨more, hrest, hindex, hlast⟩)
        · exact ⟨[], rfl, by rw [List.append_nil], by rw [List.append_nil]⟩
        · rw [List.append_assoc, List.singleton_append] at hindex hlast
          exact ⟨c :: more, by rw [hrest, List.cons_append], hindex, hlast⟩
      · rintro ⟨more, hrest, hindex, hlast⟩
        cases more with
        | nil =>
            rw [List.append_nil] at hindex hlast
            cases q
            cases hrest
            cases hindex
            cases hlast
            exact .inl rfl
        | cons d more =>
            obtain ⟨rfl, hmore⟩ := List.cons.inj hrest
            refine .inr ⟨more, hmore, ?_, ?_⟩
            · rwa [List.append_assoc, List.singleton_append]
            · rwa [List.append_assoc, List.singleton_append]

/-- A match may start at each place of the text. -/
theorem mem_onward_start : q ∈ (start text).onward ↔ q.Of text := by
  have hgo := @mem_onward_go [] text q
  simp only [List.nil_append] at hgo
  exact hgo

/-- All of the places are in the text. -/
def AllOf (text : List Char) (places : List Place) : Prop := ∀ p ∈ places, p.Of text

theorem memOf_iff (hplaces : AllOf text places) (hp : p.Of text) :
    memOf places p = true ↔ p ∈ places := by
  rw [memOf, List.any_eq_true]
  constructor
  · rintro ⟨q, hq, hindex⟩
    exact (hplaces q hq).eq_of_index hp (beq_iff_eq.mp hindex) ▸ hq
  · exact fun h => ⟨p, h, beq_self_eq_true _⟩

theorem mem_newIn (hplaces : AllOf text places) (hmore : AllOf text more) :
    q ∈ newIn places more ↔ q ∈ more ∧ q ∉ places := by
  have hfrom : ∀ new, AllOf text new → (q ∈ more.foldl
      (fun new p => if memOf places p || memOf new p then new else new ++ [p]) new
        ↔ q ∈ new ∨ q ∈ more ∧ q ∉ places) := by
    induction more with
    | nil => simp
    | cons p more ih =>
        intro new hnew
        obtain ⟨hp, hmore⟩ := List.forall_mem_cons.mp hmore
        rw [List.foldl_cons]
        split
        · next hknown =>
            rw [Bool.or_eq_true, memOf_iff hplaces hp, memOf_iff hnew hp] at hknown
            rw [ih hmore new hnew]
            grind
        · next hknown =>
            rw [Bool.or_eq_true, memOf_iff hplaces hp, memOf_iff hnew hp, not_or] at hknown
            have hboth : AllOf text (new ++ [p]) := List.forall_mem_append.mpr
              ⟨hnew, List.forall_mem_singleton.mpr hp⟩
            rw [ih hmore _ hboth]
            grind
  rw [newIn, hfrom [] (List.forall_mem_nil _)]
  simp

theorem mem_merge (hplaces : AllOf text places) (hmore : AllOf text more) :
    q ∈ merge places more ↔ q ∈ places ∨ q ∈ more := by
  rw [merge, List.mem_append, mem_newIn hplaces hmore]
  by_cases h : q ∈ places <;> simp [h]

end Place

namespace Regex

open Place

/-! ## Matches -/

/-- So many steps in a row. -/
def Steps (R : Place → Place → Prop) : Nat → Place → Place → Prop
  | 0, p, q => p = q
  | n + 1, p, q => ∃ middle, R p middle ∧ Steps R n middle q

/-- The expression matches what stands between the two places.  Where the upper bound of a repetition is
below the lower one, it has to be repeated as often as that. -/
def Matches : Regex → Place → Place → Prop
  | .empty, p, q => p = q
  | .set s, p, q => p.pass? s = some q
  | .anchor a, p, q => a.holds p = true ∧ p = q
  | .seq r s, p, q => ∃ middle, r.Matches p middle ∧ s.Matches middle q
  | .alt r s, p, q => r.Matches p q ∨ s.Matches p q
  | .repeated r low high, p, q =>
    ∃ n, low ≤ n ∧ (∀ most ∈ high, n ≤ max low most) ∧ Steps r.Matches n p q

variable {R S : Place → Place → Prop} {step : List Place → List Place} {m n : Nat}

theorem steps_add : Steps R (m + n) p q ↔ ∃ middle, Steps R m p middle ∧ Steps R n middle q := by
  induction m generalizing p with
  | zero => simp [Steps]
  | succ m ih =>
      rw [Nat.succ_add, Steps]
      simp only [ih, Steps]
      constructor
      · rintro ⟨next, hfirst, middle, hsteps, hmore⟩
        exact ⟨middle, ⟨next, hfirst, hsteps⟩, hmore⟩
      · rintro ⟨middle, ⟨next, hfirst, hsteps⟩, hmore⟩
        exact ⟨next, hfirst, middle, hsteps, hmore⟩

/-- In a text, the relation never goes back. -/
def Advances (text : List Char) (R : Place → Place → Prop) : Prop :=
  ∀ p q, p.Of text → R p q → q.Of text ∧ p.index ≤ q.index

namespace Advances

theorem steps (hR : Advances text R) (n : Nat) : Advances text (Steps R n) := by
  induction n with
  | zero =>
      rintro p _ hp rfl
      exact ⟨hp, Nat.le_refl _⟩
  | succ n ih =>
      rintro p q hp ⟨middle, hfirst, hmore⟩
      obtain ⟨hmiddle, hle⟩ := hR p middle hp hfirst
      obtain ⟨hq, hle'⟩ := ih middle q hmiddle hmore
      exact ⟨hq, Nat.le_trans hle hle'⟩

theorem of_matches (text : List Char) (r : Regex) : Advances text r.Matches := by
  induction r with
  | empty =>
      rintro p _ hp rfl
      exact ⟨hp, Nat.le_refl _⟩
  | set s => exact fun p q hp h => hp.pass? h
  | anchor a =>
      rintro p _ hp ⟨-, rfl⟩
      exact ⟨hp, Nat.le_refl _⟩
  | seq r s ihr ihs =>
      rintro p q hp ⟨middle, hfirst, hmore⟩
      obtain ⟨hmiddle, hle⟩ := ihr p middle hp hfirst
      obtain ⟨hq, hle'⟩ := ihs middle q hmiddle hmore
      exact ⟨hq, Nat.le_trans hle hle'⟩
  | alt r s ihr ihs => exact fun p q hp h => h.elim (ihr p q hp) (ihs p q hp)
  | repeated r low high ih =>
      rintro p q hp ⟨n, -, -, hsteps⟩
      exact ih.steps n p q hp hsteps

end Advances

/-- A step that stays in its place can be left out, and there are only so many others. -/
theorem Steps.shorten (hR : Advances text R) (hp : p.Of text) (h : Steps R n p q) :
    ∃ k ≤ n, k ≤ q.index - p.index ∧ Steps R k p q := by
  induction n generalizing p with
  | zero => exact ⟨0, Nat.le_refl _, Nat.zero_le _, h⟩
  | succ n ih =>
      obtain ⟨middle, hfirst, hmore⟩ := h
      obtain ⟨hmiddle, hle⟩ := hR p middle hp hfirst
      obtain ⟨k, hk, hbound, hsteps⟩ := ih hmiddle hmore
      have hle' := ((hR.steps k) middle q hmiddle hsteps).2
      by_cases heq : p.index = middle.index
      · obtain rfl := hp.eq_of_index hmiddle heq
        exact ⟨k, Nat.le_succ_of_le hk, hbound, hsteps⟩
      · exact ⟨k + 1, Nat.succ_le_succ hk, by omega, middle, hfirst, hsteps⟩

/-! ## Sets of places -/

/-- Among the places of the text, the step goes from a set to all that the relation leads to. -/
def Finds (text : List Char) (step : List Place → List Place) (R : Place → Place → Prop) : Prop :=
  ∀ places, AllOf text places → ∀ q, q ∈ step places ↔ ∃ p ∈ places, R p q

namespace Finds

theorem allOf (h : Finds text step R) (hR : Advances text R) (hplaces : AllOf text places) :
    AllOf text (step places) := fun q hq => by
  obtain ⟨p, hp, hstep⟩ := (h places hplaces q).mp hq
  exact (hR p q (hplaces p hp) hstep).1

theorem iterate (h : Finds text step R) (hR : Advances text R) (n : Nat) :
    Finds text (Regex.iterate step n) (Steps R n) := by
  induction n with
  | zero =>
      intro places _ q
      simp [Regex.iterate, Steps]
  | succ n ih =>
      intro places hplaces q
      rw [Regex.iterate]
      split
      · next hempty => simp [List.isEmpty_iff.mp hempty]
      · rw [ih _ (h.allOf hR hplaces)]
        simp only [h places hplaces, Steps]
        constructor
        · rintro ⟨middle, ⟨p, hp, hfirst⟩, hmore⟩
          exact ⟨p, hp, middle, hfirst, hmore⟩
        · rintro ⟨p, hp, middle, hfirst, hmore⟩
          exact ⟨middle, ⟨p, hp, hfirst⟩, hmore⟩

/-- From the places reached, so many steps more.  Those that are not on the frontier have been left
already. -/
theorem reach (h : Finds text step R) (hR : Advances text R) {frontier reached : List Place}
    (hreached : AllOf text reached) (hfrontier : ∀ p ∈ frontier, p ∈ reached)
    (hleft : ∀ p ∈ reached, p ∉ frontier → ∀ q, R p q → q ∈ reached) (n : Nat) (q : Place) :
    q ∈ Regex.reach step n frontier reached ↔ ∃ k ≤ n, ∃ p ∈ reached, Steps R k p q := by
  induction n generalizing frontier reached with
  | zero => simp [Regex.reach, Steps]
  | succ n ih =>
      have hall : AllOf text frontier := fun p hp => hreached p (hfrontier p hp)
      have hnew : ∀ q, q ∈ newIn reached (step frontier) ↔ q ∈ step frontier ∧ q ∉ reached :=
        fun q => mem_newIn hreached (h.allOf hR hall)
      have hstep : ∀ p ∈ reached, ∀ q, R p q → q ∈ reached ++ newIn reached (step frontier) := by
        intro p hp q hpq
        rw [List.mem_append, hnew, h frontier hall]
        by_cases hmem : p ∈ frontier
        · by_cases hq : q ∈ reached
          · exact .inl hq
          · exact .inr ⟨⟨p, hmem, hpq⟩, hq⟩
        · exact .inl (hleft p hp hmem q hpq)
      rw [Regex.reach]
      split
      · next hempty =>
          have hclosed : ∀ k, ∀ p ∈ reached, Steps R k p q → q ∈ reached := by
            intro k
            induction k with
            | zero => exact fun p hp heq => heq ▸ hp
            | succ k ihk =>
                rintro p hp ⟨middle, hfirst, hmore⟩
                have hnot : p ∉ frontier := by simp [List.isEmpty_iff.mp hempty]
                exact ihk middle (hleft p hp hnot middle hfirst) hmore
          exact ⟨fun hq => ⟨0, Nat.zero_le _, q, hq, rfl⟩, fun ⟨k, _, p, hp, hsteps⟩ =>
            hclosed k p hp hsteps⟩
      · have hnewOf : AllOf text (newIn reached (step frontier)) := fun q hq =>
          h.allOf hR hall q ((hnew q).mp hq).1
        rw [ih (List.forall_mem_append.mpr ⟨hreached, hnewOf⟩) (fun p => List.mem_append_right _)
          fun p hp hnot => hstep p ((List.mem_append.mp hp).resolve_right hnot)]
        constructor
        · rintro ⟨k, hk, p, hp, hsteps⟩
          obtain hp | hp := List.mem_append.mp hp
          · exact ⟨k, Nat.le_succ_of_le hk, p, hp, hsteps⟩
          · obtain ⟨first, hfirst, hfp⟩ := (h frontier hall p).mp ((hnew p).mp hp).1
            exact ⟨k + 1, Nat.succ_le_succ hk, first, hfrontier first hfirst, p, hfp, hsteps⟩
        · rintro ⟨k, hk, p, hp, hsteps⟩
          cases k with
          | zero => exact ⟨0, Nat.zero_le _, p, List.mem_append_left _ hp, hsteps⟩
          | succ k =>
              obtain ⟨middle, hfirst, hmore⟩ := hsteps
              exact ⟨k, Nat.le_of_succ_le_succ hk, middle, hstep p hp middle hfirst, hmore⟩

end Finds

theorem lt_placeCount (hp : p ∈ places) : p.rest.length < placeCount places := by
  have hfold : ∀ (ns : List Nat) (n : Nat), n ≤ ns.foldl max n ∧ ∀ m ∈ ns, m ≤ ns.foldl max n := by
    intro ns
    induction ns with
    | nil => simp
    | cons m ns ih =>
        intro n
        obtain ⟨hmax, hothers⟩ := ih (max n m)
        rw [List.foldl_cons]
        exact ⟨by omega, List.forall_mem_cons.mpr ⟨by omega, hothers⟩⟩
  exact (hfold _ 0).2 _ (List.mem_map_of_mem hp)

/-- The rounds that a repetition goes on for are enough to find all places that further ones lead to. -/
theorem Finds.rounds (h : Finds text step R) (hR : Advances text R) {first : List Place}
    (hfirst : AllOf text first) (low : Nat) (high : Option Nat) (q : Place) :
    q ∈ Regex.reach step (match high with
        | some high => min (high - low) (placeCount first)
        | none => placeCount first) first first
      ↔ ∃ k, (∀ most ∈ high, low + k ≤ max low most) ∧ ∃ p ∈ first, Steps R k p q := by
  rw [h.reach hR hfirst (fun p hp => hp) fun p hp hnot => absurd hp hnot]
  constructor
  · rintro ⟨k, hk, hsteps⟩
    refine ⟨k, ?_, hsteps⟩
    rintro most rfl
    dsimp only at hk
    omega
  · rintro ⟨k, hmost, p, hp, hsteps⟩
    obtain ⟨j, hj, hbound, hshort⟩ := hsteps.shorten hR (hfirst p hp)
    -- What is left of the text at the first place bounds the steps from there.
    have hcount := lt_placeCount hp
    have hlength := (hfirst p hp).length
    have hlength' := (hR.steps j p q (hfirst p hp) hshort).1.length
    refine ⟨j, ?_, p, hp, hshort⟩
    cases high with
    | none =>
        dsimp only
        omega
    | some most =>
        have hle := hmost most rfl
        dsimp only
        omega

/-- The matcher finds where matches end. -/
theorem finds_ends (text : List Char) (r : Regex) : Finds text r.ends r.Matches := by
  induction r with
  | empty => simp [Finds, ends, Matches]
  | set s => simp [Finds, ends, Matches]
  | anchor a =>
      intro places _ q
      simp only [ends, List.mem_filter, Matches]
      constructor
      · rintro ⟨hq, ha⟩
        exact ⟨q, hq, ha, rfl⟩
      · rintro ⟨_, hq, ha, rfl⟩
        exact ⟨hq, ha⟩
  | seq r s ihr ihs =>
      intro places hplaces q
      rw [ends, ihs _ (ihr.allOf (.of_matches text r) hplaces)]
      simp only [ihr places hplaces, Matches]
      constructor
      · rintro ⟨middle, ⟨p, hp, hfirst⟩, hmore⟩
        exact ⟨p, hp, middle, hfirst, hmore⟩
      · rintro ⟨p, hp, middle, hfirst, hmore⟩
        exact ⟨middle, ⟨p, hp, hfirst⟩, hmore⟩
  | alt r s ihr ihs =>
      intro places hplaces q
      rw [ends, mem_merge (ihr.allOf (.of_matches text r) hplaces) (ihs.allOf (.of_matches text s) hplaces),
        ihr places hplaces, ihs places hplaces]
      simp only [Matches, and_or_left, exists_or]
  | repeated r low high ih =>
      intro places hplaces q
      have hR := Advances.of_matches text r
      have hlow := ih.iterate hR low
      refine (ih.rounds hR (hlow.allOf (hR.steps low) hplaces) low high q).trans ?_
      simp only [hlow places hplaces, Matches]
      constructor
      · rintro ⟨k, hmost, middle, ⟨p, hp, hfirst⟩, hmore⟩
        exact ⟨p, hp, low + k, Nat.le_add_right _ _, hmost, steps_add.mpr ⟨middle, hfirst, hmore⟩⟩
      · rintro ⟨p, hp, n, hn, hmost, hsteps⟩
        obtain ⟨k, rfl⟩ := Nat.exists_eq_add_of_le hn
        obtain ⟨middle, hfirst, hmore⟩ := steps_add.mp hsteps
        exact ⟨k, hmost, middle, ⟨p, hp, hfirst⟩, hmore⟩

/-- There is a match in a text exactly if the expression matches between two of its places. -/
theorem isMatch_iff {r : Regex} {text : String} :
    r.isMatch text = true ↔ ∃ p q, p.Of text.toList ∧ r.Matches p q := by
  have hends := finds_ends text.toList r _ fun p => mem_onward_start.mp
  rw [isMatch, Bool.not_eq_true', List.isEmpty_eq_false_iff_exists_mem]
  simp only [hends, mem_onward_start]
  constructor
  · rintro ⟨q, p, hp, h⟩
    exact ⟨p, q, hp, h⟩
  · rintro ⟨p, q, hp, h⟩
    exact ⟨q, p, hp, h⟩

end Regex

end DocStore
