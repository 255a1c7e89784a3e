import DocStore.Assoc
import Mathlib.Data.List.Nodup
import Mathlib.Data.List.Perm.Subperm

/-!
# Laws of association lists

`Assoc` says what looking up finds after one change.  Here stand the laws about a table as a whole:
which pairs it holds, that its keys stay distinct, and that a change to one key can be taken back so
that the table is again what it was, places included.

* `erase_insert` takes back that a new key was appended.
* `insert_insert` takes back that the value of a key was replaced.
* `insertAt_erase` takes back that a key was left out.
-/

namespace DocStore.Assoc

variable {κ α : Type} [DecidableEq κ]

/-! ## Pairs and lookups -/

theorem get?_eq_none_iff {entries : List (κ × α)} {key : κ} :
    get? entries key = none ↔ key ∉ keys entries := by
  rw [← contains_iff_mem_keys, contains]
  cases get? entries key <;> simp

theorem mem_of_get? {entries : List (κ × α)} {key : κ} {value : α}
    (h : get? entries key = some value) : (key, value) ∈ entries := by
  induction entries with
  | nil => cases h
  | cons entry rest ih =>
      obtain ⟨k, v⟩ := entry
      rw [get?] at h
      split at h
      · next hk =>
          cases h
          subst hk
          exact List.mem_cons_self
      · exact List.mem_cons_of_mem _ (ih h)

omit [DecidableEq κ] in
theorem mem_keys_of_mem {entries : List (κ × α)} {key : κ} {value : α}
    (h : (key, value) ∈ entries) : key ∈ keys entries :=
  List.mem_map.mpr ⟨(key, value), h, rfl⟩

/-- Where no key occurs twice, every pair is what its key is looked up to. -/
theorem get?_of_mem {entries : List (κ × α)} {key : κ} {value : α}
    (hd : (keys entries).Nodup) (h : (key, value) ∈ entries) : get? entries key = some value := by
  induction entries with
  | nil => cases h
  | cons entry rest ih =>
      obtain ⟨k, v⟩ := entry
      obtain ⟨hk, hrest⟩ := List.nodup_cons.mp hd
      rcases List.mem_cons.mp h with heq | hmem
      · cases heq
        rw [get?, if_pos rfl]
      · have hne : k ≠ key := by
          rintro rfl
          exact hk (mem_keys_of_mem hmem)
        rw [get?, if_neg hne]
        exact ih hrest hmem

theorem mem_insert {entries : List (κ × α)} {key : κ} {value : α} {entry : κ × α}
    (hd : (keys entries).Nodup) (h : entry ∈ insert entries key value) :
    entry = (key, value) ∨ (entry ∈ entries ∧ entry.1 ≠ key) := by
  induction entries with
  | nil => exact .inl (List.mem_singleton.mp h)
  | cons head rest ih =>
      obtain ⟨k, v⟩ := head
      obtain ⟨hk, hrest⟩ := List.nodup_cons.mp hd
      rw [insert] at h
      split at h
      · next hkey =>
          rcases List.mem_cons.mp h with heq | hmem
          · exact .inl (hkey ▸ heq)
          · refine .inr ⟨List.mem_cons_of_mem _ hmem, ?_⟩
            rintro heq
            exact hk (hkey.trans heq.symm ▸ mem_keys_of_mem hmem)
      · next hkey =>
          rcases List.mem_cons.mp h with heq | hmem
          · exact .inr ⟨heq ▸ List.mem_cons_self, heq ▸ hkey⟩
          · rcases ih hrest hmem with heq | ⟨hin, hne⟩
            · exact .inl heq
            · exact .inr ⟨List.mem_cons_of_mem _ hin, hne⟩

/-- Writing touches the pair of its key alone. -/
theorem mem_insert_of_ne {entries : List (κ × α)} {key : κ} {value : α} {entry : κ × α}
    (h : entry.1 ≠ key) : entry ∈ insert entries key value ↔ entry ∈ entries := by
  have hne : entry ≠ (key, value) := fun heq => h (congrArg Prod.fst heq)
  induction entries with
  | nil => simp [insert, hne]
  | cons head rest ih =>
      obtain ⟨k, v⟩ := head
      rw [insert]
      split
      · next hk =>
          have hhead : entry ≠ (k, v) := fun heq => h (hk ▸ congrArg Prod.fst heq)
          have hnew : entry ≠ (k, value) := fun heq => h (hk ▸ congrArg Prod.fst heq)
          rw [List.mem_cons, List.mem_cons, or_iff_right hhead, or_iff_right hnew]
      · exact List.mem_cons.trans ((or_congr_right ih).trans List.mem_cons.symm)

/-- What is in a table after a write was there before or has been written. -/
theorem eq_or_mem_of_mem_insert {entries : List (κ × α)} {key : κ} {value : α} {entry : κ × α}
    (h : entry ∈ insert entries key value) : entry = (key, value) ∨ entry ∈ entries := by
  induction entries with
  | nil => exact .inl (List.mem_singleton.mp h)
  | cons head rest ih =>
      obtain ⟨k, v⟩ := head
      rw [insert] at h
      split at h
      · next hk =>
          rcases List.mem_cons.mp h with heq | hmem
          · exact .inl (hk ▸ heq)
          · exact .inr (List.mem_cons_of_mem _ hmem)
      · rcases List.mem_cons.mp h with heq | hmem
        · exact .inr (heq ▸ List.mem_cons_self)
        · exact (ih hmem).imp_right (List.mem_cons_of_mem _)

theorem insert_ne_nil (entries : List (κ × α)) (key : κ) (value : α) :
    insert entries key value ≠ [] := by
  cases entries with
  | nil => simp [insert]
  | cons entry rest =>
      rw [insert]
      split <;> simp

theorem mem_erase {entries : List (κ × α)} {key : κ} {entry : κ × α} :
    entry ∈ erase entries key ↔ entry ∈ entries ∧ entry.1 ≠ key := by
  simp [erase]

theorem eq_or_mem_of_mem_insertAt {entries : List (κ × α)} {place : Nat} {key : κ} {value : α}
    {entry : κ × α} (h : entry ∈ insertAt entries place key value) :
    entry = (key, value) ∨ entry ∈ entries := by
  rw [insertAt] at h
  rcases List.mem_append.mp h with hmem | hmem
  · exact .inr (mem_erase.mp (List.mem_of_mem_take hmem)).1
  · rcases List.mem_cons.mp hmem with heq | hmem
    · exact .inl heq
    · exact .inr (mem_erase.mp (List.mem_of_mem_drop hmem)).1

theorem get?_insertAt_self (entries : List (κ × α)) (place : Nat) (key : κ) (value : α) :
    get? (insertAt entries place key value) key = some value := by
  have hnot : get? ((erase entries key).take place) key = none := by
    rw [get?_eq_none_iff]
    intro hmem
    obtain ⟨entry, hentry, hkey⟩ := List.mem_map.mp hmem
    exact (mem_erase.mp (List.mem_of_mem_take hentry)).2 hkey
  rw [insertAt]
  generalize (erase entries key).drop place = after
  generalize (erase entries key).take place = before at hnot
  induction before with
  | nil => simp [get?]
  | cons head rest ih =>
      obtain ⟨k, v⟩ := head
      rw [get?] at hnot
      split at hnot
      · cases hnot
      · next hk =>
          rw [List.cons_append, get?, if_neg hk]
          exact ih hnot

theorem get?_insertAt_of_ne (entries : List (κ × α)) (place : Nat) {key other : κ} (value : α)
    (h : other ≠ key) : get? (insertAt entries place key value) other = get? entries other := by
  rw [insertAt, ← get?_erase_of_ne entries h]
  conv_rhs => rw [← List.take_append_drop place (erase entries key)]
  generalize (erase entries key).drop place = after
  generalize (erase entries key).take place = before
  induction before with
  | nil => simp [get?, h.symm]
  | cons head rest ih =>
      obtain ⟨k, v⟩ := head
      rw [List.cons_append, List.cons_append, get?, get?, ih]

/-! ## The other entries

Entries that are picked by their keys do not notice a change to a key that is not picked. -/

section Filter

variable {p : κ → Bool} {key : κ}

theorem filter_erase (entries : List (κ × α)) (h : p key = false) :
    (erase entries key).filter (fun entry => p entry.1) = entries.filter fun entry => p entry.1 := by
  rw [erase, List.filter_filter]
  refine List.filter_congr fun entry _ => ?_
  by_cases hkey : entry.1 = key
  · rw [hkey, h, Bool.false_and]
  · simp [hkey]

theorem filter_insert (entries : List (κ × α)) (value : α) (h : p key = false) :
    (insert entries key value).filter (fun entry => p entry.1)
      = entries.filter fun entry => p entry.1 := by
  induction entries with
  | nil => simp [insert, h]
  | cons entry rest ih =>
      obtain ⟨k, v⟩ := entry
      rw [insert]
      split
      · next hk => simp [hk, h]
      · rw [List.filter_cons, List.filter_cons, ih]

end Filter

/-! ## Distinct keys -/

theorem keys_erase (entries : List (κ × α)) (key : κ) :
    keys (erase entries key) = (keys entries).filter fun k => !(k = key) := by
  rw [keys, keys, erase, List.filter_map]
  rfl

theorem nodup_keys_erase {entries : List (κ × α)} (key : κ) (h : (keys entries).Nodup) :
    (keys (erase entries key)).Nodup := by
  rw [keys_erase]
  exact h.filter _

theorem keys_modify (entries : List (κ × α)) (key : κ) (f : α → α) :
    keys (modify entries key f) = keys entries := by
  induction entries with
  | nil => rfl
  | cons entry rest ih =>
      obtain ⟨k, v⟩ := entry
      rw [modify]
      split
      · rfl
      · exact congrArg (k :: ·) ih

theorem nodup_keys_insertAt {entries : List (κ × α)} (place : Nat) (key : κ) (value : α)
    (h : (keys entries).Nodup) : (keys (insertAt entries place key value)).Nodup := by
  have hothers := nodup_keys_erase key h
  have hkey : key ∉ keys (erase entries key) := by
    rw [← get?_eq_none_iff]
    exact get?_erase_self entries key
  rw [← List.take_append_drop place (erase entries key), keys, List.map_append] at hothers hkey
  rw [insertAt, keys, List.map_append, List.map_cons, List.nodup_middle]
  exact List.nodup_cons.mpr ⟨hkey, hothers⟩

omit [DecidableEq κ] in
/-- Tables of as many keys have the same keys if those of the one are among those of the other. -/
theorem mem_keys_of_subset {β : Type} {entries : List (κ × α)} {others : List (κ × β)}
    (hd : (keys entries).Nodup) (hlength : entries.length = others.length)
    (hsub : ∀ key ∈ keys entries, key ∈ keys others) {key : κ} (h : key ∈ keys others) :
    key ∈ keys entries := by
  have hlength : (keys others).length ≤ (keys entries).length := by
    simp only [keys, List.length_map, hlength, Nat.le_refl]
  exact ((hd.subperm hsub).perm_of_length_le hlength).mem_iff.mpr h

/-! ## Some of the values

`filterMap` keeps the keys whose values have an image, with those images for values. -/

section FilterMap

variable {β : Type} (f : α → Option β)

def filterMap (entries : List (κ × α)) : List (κ × β) :=
  entries.filterMap fun entry => (f entry.2).map (Prod.mk entry.1)

omit [DecidableEq κ] in
theorem filterMap_cons (key : κ) (value : α) (rest : List (κ × α)) :
    filterMap f ((key, value) :: rest)
      = (f value).elim (filterMap f rest) fun image => (key, image) :: filterMap f rest := by
  rw [filterMap, List.filterMap_cons]
  dsimp only
  cases f value <;> rfl

theorem get?_filterMap {entries : List (κ × α)} (hd : (keys entries).Nodup) (key : κ) :
    get? (filterMap f entries) key = (get? entries key).bind f := by
  induction entries with
  | nil => rfl
  | cons entry rest ih =>
      obtain ⟨k, v⟩ := entry
      obtain ⟨hk, hrest⟩ := List.nodup_cons.mp hd
      rw [filterMap_cons, get?]
      by_cases hkey : k = key
      · subst hkey
        rw [if_pos rfl, Option.bind_some]
        cases f v with
        | none =>
            have hnone : get? rest k = none := get?_eq_none_iff.mpr hk
            exact (ih hrest).trans (by rw [hnone, Option.bind_none])
        | some image => exact if_pos rfl
      · rw [if_neg hkey]
        cases f v with
        | none => exact ih hrest
        | some image => exact (if_neg hkey).trans (ih hrest)

omit [DecidableEq κ] in
theorem keys_filterMap_sublist (entries : List (κ × α)) :
    (keys (filterMap f entries)).Sublist (keys entries) := by
  induction entries with
  | nil => exact .refl _
  | cons entry rest ih =>
      obtain ⟨k, v⟩ := entry
      rw [filterMap_cons]
      cases f v with
      | none => exact ih.cons k
      | some image => exact ih.cons_cons k

omit [DecidableEq κ] in
theorem length_filterMap (entries : List (κ × α)) :
    (filterMap f entries).length = entries.countP fun entry => (f entry.2).isSome := by
  rw [filterMap, List.length_filterMap_eq_countP]
  simp only [Option.isSome_map]

end FilterMap

/-! ## Many writes -/

theorem get?_append (entries more : List (κ × α)) (key : κ) :
    get? (entries ++ more) key = (get? entries key).or (get? more key) := by
  induction entries with
  | nil => rfl
  | cons entry rest ih =>
      obtain ⟨k, v⟩ := entry
      rw [List.cons_append, get?, get?, ih]
      split <;> rfl

/-- Of all that is inserted under a key, the last counts. -/
theorem get?_insertAll (entries more : List (κ × α)) (key : κ) :
    get? (insertAll entries more) key = (get? more.reverse key).or (get? entries key) := by
  induction more generalizing entries with
  | nil => rfl
  | cons entry rest ih =>
      obtain ⟨k, v⟩ := entry
      have hstep : insertAll entries ((k, v) :: rest) = insertAll (insert entries k v) rest := rfl
      rw [hstep, ih, List.reverse_cons, get?_append, Option.or_assoc]
      congr 1
      by_cases hk : k = key
      · rw [hk, get?_insert_self, get?, if_pos rfl]
        rfl
      · rw [get?_insert_of_ne _ _ (Ne.symm hk), get?, if_neg hk]
        rfl

theorem nodup_keys_insertAll {entries : List (κ × α)} (more : List (κ × α))
    (h : (keys entries).Nodup) : (keys (insertAll entries more)).Nodup := by
  induction more generalizing entries with
  | nil => exact h
  | cons entry rest ih => exact ih (nodup_keys_insert entry.1 entry.2 h)

/-- What is in a table after many writes was there before or has been written. -/
theorem mem_or_mem_of_mem_insertAll {entries more : List (κ × α)} {entry : κ × α}
    (h : entry ∈ insertAll entries more) : entry ∈ entries ∨ entry ∈ more := by
  induction more generalizing entries with
  | nil => exact .inl h
  | cons first rest ih =>
      rcases ih h with hmem | hmem
      · rcases eq_or_mem_of_mem_insert hmem with rfl | hmem
        · exact .inr List.mem_cons_self
        · exact .inl hmem
      · exact .inr (List.mem_cons_of_mem _ hmem)

/-- Where no key occurs twice, the order does not matter for looking up. -/
theorem get?_reverse {entries : List (κ × α)} (h : (keys entries).Nodup) (key : κ) :
    get? entries.reverse key = get? entries key := by
  have hreverse : (keys entries.reverse).Nodup := by
    rw [keys, List.map_reverse]
    exact List.nodup_reverse.mpr h
  cases hkey : get? entries key with
  | none =>
      rw [get?_eq_none_iff, keys, List.map_reverse, List.mem_reverse]
      exact get?_eq_none_iff.mp hkey
  | some value => exact get?_of_mem hreverse (List.mem_reverse.mpr (mem_of_get? hkey))

/-! ## Taking a change back -/

theorem erase_of_not_mem {entries : List (κ × α)} {key : κ} (h : key ∉ keys entries) :
    erase entries key = entries := by
  rw [erase, List.filter_eq_self]
  intro entry hentry
  have hne : entry.1 ≠ key := by
    rintro rfl
    exact h (List.mem_map.mpr ⟨entry, hentry, rfl⟩)
  simp [hne]

theorem insert_of_not_mem {entries : List (κ × α)} {key : κ} (value : α) (h : key ∉ keys entries) :
    insert entries key value = entries ++ [(key, value)] := by
  induction entries with
  | nil => rfl
  | cons entry rest ih =>
      obtain ⟨k, v⟩ := entry
      obtain ⟨hk, hrest⟩ := not_or.mp (mt List.mem_cons.mpr h)
      rw [insert, if_neg (Ne.symm hk), ih hrest]
      rfl

/-- Where keys are distinct, writing to one that is there replaces its value in its place. -/
theorem insert_eq_map {entries : List (κ × α)} {key : κ} (value : α) (hd : (keys entries).Nodup)
    (h : key ∈ keys entries) :
    insert entries key value
      = entries.map fun entry => if entry.1 = key then (key, value) else entry := by
  induction entries with
  | nil => cases h
  | cons entry rest ih =>
      obtain ⟨k, v⟩ := entry
      obtain ⟨hk, hrest⟩ := List.nodup_cons.mp hd
      rw [insert, List.map_cons]
      by_cases hkey : k = key
      · subst hkey
        have hsame : rest.map (fun entry => if entry.1 = k then (k, value) else entry) = rest := by
          refine (List.map_congr_left fun entry hentry => if_neg ?_).trans (List.map_id rest)
          rintro rfl
          exact hk (List.mem_map.mpr ⟨entry, hentry, rfl⟩)
        rw [if_pos rfl, if_pos rfl, hsame]
      · rw [if_neg hkey, if_neg hkey, ih hrest ((List.mem_cons.mp h).resolve_left (Ne.symm hkey))]

/-- A key that is left out makes no difference, whatever was written under it. -/
theorem erase_insert_self (entries : List (κ × α)) (key : κ) (value : α) :
    erase (insert entries key value) key = erase entries key := by
  induction entries with
  | nil => simp [insert, erase]
  | cons entry rest ih =>
      obtain ⟨k, v⟩ := entry
      rw [insert]
      split
      · next hk => simp [erase, hk]
      · next hk =>
          rw [erase, erase, List.filter_cons_of_pos (by simp [hk]),
            List.filter_cons_of_pos (by simp [hk])]
          exact congrArg _ ih

/-- A new key, appended and left out again. -/
theorem erase_insert {entries : List (κ × α)} {key : κ} (value : α) (h : get? entries key = none) :
    erase (insert entries key value) key = entries :=
  (erase_insert_self entries key value).trans (erase_of_not_mem (get?_eq_none_iff.mp h))

/-- A new key makes one entry more. -/
theorem length_insert (entries : List (κ × α)) (key : κ) (value : α) :
    (insert entries key value).length
      = entries.length + if (get? entries key).isNone then 1 else 0 := by
  have hlength : ∀ more : List (κ × α), (keys more).length = more.length := fun _ => List.length_map _
  rw [← hlength, keys_insert, ← hlength]
  split
  · next hmem =>
      have hsome : ¬get? entries key = none := fun hnone => get?_eq_none_iff.mp hnone hmem
      simp [hsome]
  · next hnot => simp [get?_eq_none_iff.mpr hnot]

theorem erase_erase (entries : List (κ × α)) (key : κ) :
    erase (erase entries key) key = erase entries key :=
  erase_of_not_mem (get?_eq_none_iff.mp (get?_erase_self entries key))

/-- A key that is given the value it has. -/
theorem insert_of_get? {entries : List (κ × α)} {key : κ} {value : α}
    (h : get? entries key = some value) : insert entries key value = entries := by
  induction entries with
  | nil => cases h
  | cons entry rest ih =>
      obtain ⟨k, v⟩ := entry
      rw [get?] at h
      rw [insert]
      split at h
      · next hk =>
          cases h
          rw [if_pos hk]
      · next hk => rw [if_neg hk, ih h]

/-- A value, replaced and put in its place again. -/
theorem insert_insert {entries : List (κ × α)} {key : κ} {old : α} (value : α)
    (h : get? entries key = some old) : insert (insert entries key value) key old = entries := by
  induction entries with
  | nil => cases h
  | cons entry rest ih =>
      obtain ⟨k, v⟩ := entry
      rw [get?] at h
      rw [insert]
      split at h
      · next hk =>
          cases h
          rw [if_pos hk, insert, if_pos hk]
      · next hk => rw [if_neg hk, insert, if_neg hk, ih h]

theorem index?_isSome (entries : List (κ × α)) (key : κ) :
    (index? entries key).isSome = (get? entries key).isSome := by
  induction entries with
  | nil => rfl
  | cons entry rest ih =>
      obtain ⟨k, v⟩ := entry
      rw [index?, get?]
      split
      · rfl
      · rw [Option.isSome_map, ih]

theorem insertAt_zero_of_not_contains {entries : List (κ × α)} {key : κ} (value : α)
    (h : ¬contains entries key = true) : insertAt entries 0 key value = (key, value) :: entries := by
  rw [insertAt, erase_of_not_mem (mt (contains_iff_mem_keys entries key).mpr h)]
  rfl

/-- A key, left out and put back at its place. -/
theorem insertAt_erase {entries : List (κ × α)} {key : κ} {place : Nat} {value : α}
    (hd : (keys entries).Nodup) (hi : index? entries key = some place)
    (hv : get? entries key = some value) :
    insertAt (erase entries key) place key value = entries := by
  rw [insertAt, erase_erase]
  induction entries generalizing place with
  | nil => cases hi
  | cons entry rest ih =>
      obtain ⟨k, v⟩ := entry
      obtain ⟨hk, hrest⟩ := List.nodup_cons.mp hd
      rw [index?] at hi
      rw [get?] at hv
      by_cases hkey : k = key
      · rw [if_pos hkey] at hi hv
        cases hi
        cases hv
        subst hkey
        have hsame : erase ((k, value) :: rest) k = rest := by
          rw [erase, List.filter_cons_of_neg (by simp)]
          exact erase_of_not_mem hk
        rw [hsame]
        rfl
      · rw [if_neg hkey] at hi hv
        obtain ⟨i, hi', rfl⟩ := Option.map_eq_some_iff.mp hi
        have hstep : erase ((k, v) :: rest) key = (k, v) :: erase rest key := by
          rw [erase, List.filter_cons_of_pos (by simp [hkey])]
          rfl
        rw [hstep, List.take_succ_cons, List.drop_succ_cons, List.cons_append, ih hrest hi' hv]

end DocStore.Assoc
