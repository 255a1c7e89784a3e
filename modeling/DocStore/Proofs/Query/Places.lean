import Mathlib.Data.List.FinRange
import Mathlib.Data.List.Induction
import Mathlib.Data.List.Nodup

/-!
# Grouping by a key

Main statement: `groupedAt_placesOf`.  What has one key goes into one group, and groups come in the
order in which their keys occur first.  To tell equal rows at different places apart, a group is given
by the places of its rows.
-/

namespace DocStore.Query

/-! ## First occurrences -/

section Occurrences

variable {κ : Type} [DecidableEq κ] {keys : List κ} {key : κ}

theorem eraseDups_concat_of_mem (h : key ∈ keys) : (keys ++ [key]).eraseDups = keys.eraseDups := by
  have hnone : [key].removeAll keys = [] := by simp [List.removeAll, h]
  rw [List.eraseDups_append, hnone, List.eraseDups_nil, List.append_nil]

theorem eraseDups_concat_of_not_mem (h : key ∉ keys) :
    (keys ++ [key]).eraseDups = keys.eraseDups ++ [key] := by
  have hall : [key].removeAll keys = [key] := by simp [List.removeAll, h]
  rw [List.eraseDups_append, hall, List.eraseDups_cons, List.filter_nil, List.eraseDups_nil]

theorem nodup_eraseDups (keys : List κ) : keys.eraseDups.Nodup := by
  induction keys using List.reverseRecOn with
  | nil => exact List.nodup_nil
  | append_singleton keys key ih =>
      by_cases h : key ∈ keys
      · rw [eraseDups_concat_of_mem h]
        exact ih
      · rw [eraseDups_concat_of_not_mem h]
        exact List.concat_eq_append ▸ ih.concat (mt List.mem_eraseDups.mp h)

/-- Before any occurrence of `l` there is one of `k`. -/
def Precedes (keys : List κ) (k l : κ) : Prop :=
  ∀ j : Nat, keys[j]? = some l → ∃ i < j, keys[i]? = some k

omit [DecidableEq κ] in
/-- An occurrence that is added at the end comes after those that are there. -/
theorem Precedes.concat {k l : κ} (hk : k ∈ keys) (h : Precedes keys k l) (key : κ) :
    Precedes (keys ++ [key]) k l := by
  have hkeep : ∀ {i : Nat}, keys[i]? = some k →
      i < keys.length ∧ (keys ++ [key])[i]? = some k := by
    intro i hi
    obtain ⟨hlt, -⟩ := List.getElem?_eq_some_iff.mp hi
    exact ⟨hlt, (List.getElem?_append_left hlt).trans hi⟩
  intro j hj
  by_cases hlt : j < keys.length
  · rw [List.getElem?_append_left hlt] at hj
    obtain ⟨i, hij, hi⟩ := h j hj
    exact ⟨i, hij, (hkeep hi).2⟩
  · obtain ⟨i, hi⟩ := List.getElem?_of_mem hk
    exact ⟨i, (hkeep hi).1.trans_le (not_lt.mp hlt), (hkeep hi).2⟩

/-- First occurrences are in the order of the list. -/
theorem pairwise_eraseDups (keys : List κ) : keys.eraseDups.Pairwise (Precedes keys) := by
  induction keys using List.reverseRecOn with
  | nil => exact List.Pairwise.nil
  | append_singleton keys key ih =>
      have hkeep : keys.eraseDups.Pairwise (Precedes (keys ++ [key])) :=
        ih.imp_of_mem fun hk _ h => h.concat (List.mem_eraseDups.mp hk) key
      by_cases hmem : key ∈ keys
      · rw [eraseDups_concat_of_mem hmem]
        exact hkeep
      · rw [eraseDups_concat_of_not_mem hmem]
        refine List.pairwise_append.mpr ⟨hkeep, List.pairwise_singleton _ _, ?_⟩
        intro k hk l hl
        cases List.mem_singleton.mp hl
        -- The new key does not occur before, so nothing is asked of `k` yet.
        have hnew : Precedes keys k key := fun j hj => absurd (List.mem_of_getElem? hj) hmem
        exact hnew.concat (List.mem_eraseDups.mp hk) key

/-- What has keys is put together again from what has each of them. -/
theorem perm_flatMap_filter {α : Type} (f : α → κ) (hd : keys.Nodup) {items : List α}
    (h : ∀ item ∈ items, f item ∈ keys) :
    (keys.flatMap fun k => items.filter fun item => f item = k).Perm items := by
  induction keys generalizing items with
  | nil =>
      cases items with
      | nil => exact .refl _
      | cons item rest => exact absurd (h item List.mem_cons_self) List.not_mem_nil
  | cons k rest ih =>
      obtain ⟨hk, hrest⟩ := List.nodup_cons.mp hd
      let others := items.filter fun item => !decide (f item = k)
      have hothers : ∀ item ∈ others, f item ∈ rest := by
        intro item hitem
        obtain ⟨hitem, hne⟩ := List.mem_filter.mp hitem
        exact (List.mem_cons.mp (h item hitem)).resolve_left (by simpa using hne)
      have hsame : (rest.flatMap fun l => items.filter fun item => f item = l)
          = rest.flatMap fun l => others.filter fun item => f item = l := by
        refine List.flatMap_congr fun l hl => ?_
        rw [List.filter_filter]
        refine List.filter_congr fun item _ => ?_
        have hne : l ≠ k := fun heq => hk (heq ▸ hl)
        by_cases hitem : f item = l
        · simp [hitem, hne]
        · simp [hitem]
      rw [List.flatMap_cons, hsame]
      exact ((ih hrest hothers).append_left _).trans (List.filter_append_perm _ _)

end Occurrences

/-! ## The places of the rows -/

section Places

variable {α κ κ' : Type} {rows : List α}

/-- Groups of rows, each given by the places of its rows.  Every row is in one group, rows are in one
group if they have the same key, and the order is that of the rows, inside a group and for the first
rows of groups. -/
structure GroupedAt (keyOf : α → κ) (rows : List α) (places : List (List (Fin rows.length))) :
    Prop where
  nonempty : ∀ group ∈ places, group ≠ []
  once : places.flatten.Perm (List.finRange rows.length)
  inOrder : ∀ group ∈ places, group.Pairwise (· < ·)
  byFirst : places.Pairwise fun g h => ∀ i ∈ g.head?, ∀ j ∈ h.head?, i < j
  sameKey : ∀ i j, (∃ group ∈ places, i ∈ group ∧ j ∈ group) ↔ keyOf rows[i] = keyOf rows[j]

/-- Only which rows have the same key matters. -/
theorem GroupedAt.congr {keyOf : α → κ} {keyOf' : α → κ'} {places : List (List (Fin rows.length))}
    (hsame : ∀ a ∈ rows, ∀ b ∈ rows, keyOf a = keyOf b ↔ keyOf' a = keyOf' b)
    (h : GroupedAt keyOf rows places) : GroupedAt keyOf' rows places :=
  { h with
    sameKey := fun i j => (h.sameKey i j).trans
      (hsame _ (List.getElem_mem i.isLt) _ (List.getElem_mem j.isLt)) }

variable [DecidableEq κ]

/-- The places of the rows of a key. -/
def placesWith (keyOf : α → κ) (rows : List α) (key : κ) : List (Fin rows.length) :=
  (List.finRange rows.length).filter fun i => keyOf rows[i] = key

def placesOf (keyOf : α → κ) (rows : List α) : List (List (Fin rows.length)) :=
  (rows.map keyOf).eraseDups.map (placesWith keyOf rows)

variable {keyOf : α → κ} {key : κ}

theorem mem_placesWith {i : Fin rows.length} :
    i ∈ placesWith keyOf rows key ↔ keyOf rows[i] = key := by
  rw [placesWith, List.mem_filter, decide_eq_true_iff]
  exact and_iff_right (List.mem_finRange i)

theorem pairwise_placesWith (key : κ) : (placesWith keyOf rows key).Pairwise (· < ·) :=
  (List.pairwise_lt_finRange _).filter _

theorem mem_eraseDups_map (i : Fin rows.length) : keyOf rows[i] ∈ (rows.map keyOf).eraseDups :=
  List.mem_eraseDups.mpr (List.mem_map_of_mem (List.getElem_mem i.isLt))

theorem le_of_mem_head? {n : Nat} {places : List (Fin n)} {i j : Fin n}
    (h : places.Pairwise (· < ·)) (hi : i ∈ places.head?) (hj : j ∈ places) : i ≤ j := by
  cases places with
  | nil => cases hi
  | cons first rest =>
      cases hi
      obtain rfl | hj := List.mem_cons.mp hj
      · exact le_refl _
      · exact (List.rel_of_pairwise_cons h hj).le

theorem groupedAt_placesOf (keyOf : α → κ) (rows : List α) :
    GroupedAt keyOf rows (placesOf keyOf rows) where
  nonempty := by
    intro group hgroup
    obtain ⟨key, hkey, rfl⟩ := List.mem_map.mp hgroup
    obtain ⟨row, hrow, rfl⟩ := List.mem_map.mp (List.mem_eraseDups.mp hkey)
    obtain ⟨i, hi, rfl⟩ := List.getElem_of_mem hrow
    exact List.ne_nil_of_mem (mem_placesWith (i := ⟨i, hi⟩) |>.mpr rfl)
  once := by
    rw [placesOf, ← List.flatMap_def]
    exact perm_flatMap_filter _ (nodup_eraseDups _) fun i _ => mem_eraseDups_map i
  inOrder := by
    intro group hgroup
    obtain ⟨key, -, rfl⟩ := List.mem_map.mp hgroup
    exact pairwise_placesWith key
  byFirst := by
    refine List.pairwise_map.mpr ((pairwise_eraseDups (rows.map keyOf)).imp ?_)
    intro k l h i hi j hj
    have hjl : keyOf rows[j] = l := mem_placesWith.mp (List.mem_of_mem_head? hj)
    obtain ⟨m, hmj, hm⟩ := h j (by simp [← hjl])
    have hmk : (⟨m, hmj.trans j.isLt⟩ : Fin rows.length) ∈ placesWith keyOf rows k := by
      rw [mem_placesWith]
      simpa [hmj.trans j.isLt] using hm
    exact (le_of_mem_head? (pairwise_placesWith k) hi hmk).trans_lt hmj
  sameKey := by
    intro i j
    constructor
    · rintro ⟨group, hgroup, hi, hj⟩
      obtain ⟨key, -, rfl⟩ := List.mem_map.mp hgroup
      rw [mem_placesWith.mp hi, mem_placesWith.mp hj]
    · intro h
      exact ⟨_, List.mem_map_of_mem (mem_eraseDups_map i), mem_placesWith.mpr rfl,
        mem_placesWith.mpr h.symm⟩

end Places

end DocStore.Query
