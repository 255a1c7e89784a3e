import DocStore.Text.Case

/-!
# Lower case

A text of which every character is its own lower case is its own lower case (`lower_eq_self`), and
no text in lower case has a capital letter from `A` to `Z` in it (`isUpper_of_mem_lower`).
-/

namespace DocStore.Text

variable {c : Char} {before : List Char}

theorem lowerFrom_cons_of_ascii (before rest : List Char) (h : c.toNat < 0x80) :
    lowerFrom before (c :: rest) = c.toLower :: lowerFrom (c :: before) rest := by
  have hne : c ≠ capitalSigma := by
    rintro rfl
    exact absurd h (by decide)
  simp [lowerFrom, hne, lowerChar, h]

theorem lowerFrom_eq_self {cs : List Char} (h : ∀ c ∈ cs, c.toNat < 0x80 ∧ c.toLower = c)
    (before : List Char) : lowerFrom before cs = cs := by
  induction cs generalizing before with
  | nil => rfl
  | cons c rest ih =>
      obtain ⟨hascii, hlower⟩ := h c List.mem_cons_self
      rw [lowerFrom_cons_of_ascii before rest hascii, hlower,
        ih fun d hd => h d (List.mem_cons_of_mem _ hd)]

theorem lower_eq_self {text : String} (h : ∀ c ∈ text.toList, c.toNat < 0x80 ∧ c.toLower = c) :
    lower text = text := by
  rw [lower, lowerFrom_eq_self h, String.ofList_toList]

/-! ## No capital letters -/

theorem isUpper_of_lt (h : 90 < c.toNat) : c.isUpper = false := by
  refine decide_eq_false fun hupper => ?_
  have hle : c.toNat ≤ 90 := UInt32.le_iff_toNat_le.mp hupper.2
  omega

theorem isUpper_ofNat {code : Nat} (h : 90 < code) : (Char.ofNat code).isUpper = false := by
  by_cases hvalid : code.isValidChar
  · have hcode : (Char.ofNat code).toNat = code := by
      rw [Char.ofNat, dif_pos hvalid]
      rfl
    exact isUpper_of_lt (by omega)
  · rw [Char.ofNat, dif_neg hvalid]
    rfl

theorem isUpper_toLower (c : Char) : c.toLower.isUpper = false := by
  by_cases hupper : c.val ≥ 'A'.val ∧ c.val ≤ 'Z'.val
  · have hlower : c.toLower = ⟨c.val + ('a'.val - 'A'.val), _⟩ := dif_pos hupper
    have hlow : 65 ≤ c.toNat := UInt32.le_iff_toNat_le.mp hupper.1
    have hhigh : c.toNat ≤ 90 := UInt32.le_iff_toNat_le.mp hupper.2
    rw [hlower]
    refine isUpper_of_lt ?_
    show 90 < (c.val + 32).toNat
    rw [UInt32.toNat_add, Char.toNat_val]
    show 90 < (c.toNat + 32) % 2 ^ 32
    omega
  · have hself : c.toLower = c := dif_neg hupper
    rw [hself]
    exact decide_eq_false hupper

/-- The case tables lead to no capital letter. -/
theorem lt_of_mem_lowerRuns : ∀ run ∈ CaseTable.lowerRuns, (90 : Int) < run.1 + run.2.2.2 := by
  decide +kernel

theorem lt_of_mem_lowerSequences :
    ∀ entry ∈ CaseTable.lowerSequences, ∀ code ∈ entry.2, 90 < code := by
  decide +kernel

theorem lt_of_runTarget? {code target : Nat} {run : Nat × Nat × Nat × Int}
    (hrun : run ∈ CaseTable.lowerRuns) (h : runTarget? code run = some target) : 90 < target := by
  have hlt := lt_of_mem_lowerRuns run hrun
  obtain ⟨first, last, step, distance⟩ := run
  rw [runTarget?] at h
  split at h
  · next hin =>
      cases h
      dsimp only at hlt
      omega
  · cases h

theorem isUpper_of_mem_lowerChar {d : Char} (h : d ∈ lowerChar c) : d.isUpper = false := by
  rw [lowerChar] at h
  split at h
  · obtain rfl := List.mem_singleton.mp h
    exact isUpper_toLower c
  · next hascii =>
      rw [mapChar] at h
      split at h
      · next codes hcodes =>
          obtain ⟨code, hcode, rfl⟩ := List.mem_map.mp h
          obtain ⟨before, after, hsplit, -⟩ := List.lookup_eq_some_iff.mp hcodes
          refine isUpper_ofNat (lt_of_mem_lowerSequences (c.toNat, codes) ?_ code hcode)
          rw [hsplit]
          exact List.mem_append_right _ List.mem_cons_self
      · split at h
        · next target htarget =>
            obtain rfl := List.mem_singleton.mp h
            obtain ⟨run, hrun, htarget⟩ := List.exists_of_findSome?_eq_some htarget
            exact isUpper_ofNat (lt_of_runTarget? hrun htarget)
        · obtain rfl := List.mem_singleton.mp h
          exact isUpper_of_lt (by omega)

theorem isUpper_of_mem_lowerFrom {cs : List Char} (h : c ∈ lowerFrom before cs) :
    c.isUpper = false := by
  induction cs generalizing before with
  | nil => cases h
  | cons d rest ih =>
      rw [lowerFrom] at h
      rcases List.mem_append.mp h with himage | hrest
      · split at himage
        · obtain rfl := List.mem_singleton.mp himage
          split <;> rfl
        · exact isUpper_of_mem_lowerChar himage
      · exact ih hrest

theorem isUpper_of_mem_lower {text : String} (h : c ∈ (lower text).toList) : c.isUpper = false := by
  rw [lower, String.toList_ofList] at h
  exact isUpper_of_mem_lowerFrom h

end DocStore.Text
