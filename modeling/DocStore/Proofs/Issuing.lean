import DocStore.Proofs.Identity

/-!
# Identifiers in order

A source looks at a clock when it is made and once more for each identifier.  Whatever the clock shows,
the identifiers come in order.  Main statement: `ordered_of_create`.

The times never go back and the serials go up by one, so the digits decide: numbers of one length are
in the order of their texts (`hexDigits_lt`), and counting on is done digit by digit
(`hexSuccessor_hexDigits`).  `Issuing` is what a source keeps as identifiers are made (`Issuing.next`,
`issuing_run`).
-/

namespace DocStore.Identity

/-! ## Digits -/

/-- The digit that comes after another one, if it is not the last. -/
def nextDigit? (c : Char) : Option Char :=
  if ('0' ≤ c ∧ c ≤ '8') ∨ ('a' ≤ c ∧ c ≤ 'e') then some (Char.ofNat (c.toNat + 1))
  else if c = '9' then some 'a'
  else none

/-- Count on by one, from the last digit to the first: a digit that was the last one starts again, and
the digit before it moves on. -/
def countOn : List Char → List Char
  | [] => []
  | c :: rest =>
    match nextDigit? c with
    | some d => d :: rest
    | none => '0' :: countOn rest

/-- The digits that come after others.  After the last ones they start again. -/
def hexSuccessor (digits : List Char) : List Char := (countOn digits.reverse).reverse

theorem nextDigit?_hexDigit :
    ∀ d < 16, nextDigit? (Json.hexDigit d) = if d < 15 then some (Json.hexDigit (d + 1)) else none := by
  decide

theorem hexDigit_lt : ∀ d < 16, ∀ e < 16, d < e → Json.hexDigit d < Json.hexDigit e := by
  decide

/-- Counting on digit by digit is counting on. -/
theorem hexSuccessor_hexDigits (count n : Nat) :
    hexSuccessor (hexDigits count n) = hexDigits count (n + 1) := by
  induction count generalizing n with
  | zero => rfl
  | succ count ih =>
      have hdigit := nextDigit?_hexDigit (n % 16) (Nat.mod_lt n (by decide))
      rw [hexSuccessor, hexDigits, List.reverse_append, List.reverse_singleton, List.singleton_append,
        countOn, hdigit, hexDigits]
      by_cases hlast : n % 16 < 15
      · rw [if_pos hlast]
        have hdiv : (n + 1) / 16 = n / 16 := by omega
        have hmod : (n + 1) % 16 = n % 16 + 1 := by omega
        rw [hdiv, hmod, List.reverse_cons, List.reverse_reverse]
      · -- The carry: the digits before the last one count on.
        rw [if_neg hlast]
        have hdiv : (n + 1) / 16 = n / 16 + 1 := by omega
        have hmod : (n + 1) % 16 = 0 := by omega
        rw [hdiv, hmod, ← ih]
        exact List.reverse_cons

/-! ## The order of texts -/

/-- What comes later does not matter where an earlier part decides. -/
theorem append_lt_append {first second : List Char} (rest rest' : List Char) (h : first < second)
    (hlength : first.length = second.length) : first ++ rest < second ++ rest' := by
  induction first generalizing second with
  | nil =>
      rw [List.length_eq_zero_iff.mp hlength.symm] at h
      cases h
  | cons c first ih =>
      cases second with
      | nil => cases h
      | cons d second =>
          rw [List.cons_append, List.cons_append, List.cons_lt_cons_iff]
          rcases List.cons_lt_cons_iff.mp h with hlt | ⟨heq, hlt⟩
          · exact .inl hlt
          · exact .inr ⟨heq, ih hlt (Nat.succ.inj hlength)⟩

/-- Digits of one length are in the order of their numbers. -/
theorem hexDigits_lt {count m n : Nat} (hlt : m < n) (hn : n < 16 ^ count) :
    hexDigits count m < hexDigits count n := by
  induction count generalizing m n with
  | zero =>
      rw [Nat.pow_zero] at hn
      omega
  | succ count ih =>
      rw [Nat.pow_succ] at hn
      rw [hexDigits, hexDigits]
      rcases Nat.lt_or_ge (m / 16) (n / 16) with hdiv | hdiv
      · have hrest := ih hdiv (by omega)
        exact append_lt_append _ _ hrest (by rw [length_hexDigits, length_hexDigits])
      · have hsame : m / 16 = n / 16 := by omega
        rw [hsame]
        apply List.append_left_lt
        rw [List.cons_lt_cons_iff]
        exact .inl (hexDigit_lt _ (by omega) _ (by omega) (by omega))

variable {source other : Identity} {label : String} {interval now : UInt64} {clock : Clock}

theorem toList_text (source : Identity) :
    source.text.toList = source.label.toList ++ (hexDigits timeLength source.timestamp.toNat
      ++ hexDigits serialLength source.serial.toNat) := by
  rw [text, serialText, String.toList_append, String.toList_append, String.toList_ofList,
    String.toList_ofList, List.append_assoc]

/-- Under one label, identifiers are in the order of their serials if time has not gone back. -/
theorem text_lt_text (hlabel : source.label = other.label)
    (htime : source.timestamp.toNat ≤ other.timestamp.toNat)
    (hsize : other.timestamp.toNat < UInt32.size)
    (hserial : source.serial.toNat < other.serial.toNat) : source.text < other.text := by
  rw [String.lt_iff, toList_text, toList_text, hlabel]
  apply List.append_left_lt
  rcases Nat.lt_or_eq_of_le htime with hlt | heq
  · refine append_lt_append _ _ (hexDigits_lt hlt hsize) ?_
    rw [length_hexDigits, length_hexDigits]
  · rw [heq]
    apply List.append_left_lt
    exact hexDigits_lt hserial other.serial.toNat_lt

/-! ## One identifier -/

@[simp] theorem label_refresh : (source.refresh now).label = source.label := by
  rw [refresh]
  split <;> rfl

@[simp] theorem interval_refresh : (source.refresh now).interval = source.interval := by
  rw [refresh]
  split <;> rfl

/-- The time does not go back. -/
theorem timestamp_le_refresh (source : Identity) (now : UInt64) :
    source.timestamp.toNat ≤ (source.refresh now).timestamp.toNat := by
  rw [refresh]
  split
  · dsimp only
    split
    · exact Nat.le_of_lt ‹_›
    · exact Nat.le_refl _
  · exact Nat.le_refl _

/-- The time shown is the one from before or the one read. -/
theorem timestamp_refresh (source : Identity) (now : UInt64) :
    (source.refresh now).timestamp = source.timestamp ∨ (source.refresh now).timestamp = now := by
  rw [refresh]
  split
  · dsimp only
    split
    · exact .inr rfl
    · exact .inl rfl
  · exact .inl rfl

/-- The time shown lags behind by less than the interval, or not at all where there is none. -/
def Lags (interval now timestamp : UInt64) : Prop :=
  timestamp.toNat ≤ now.toNat
    ∧ (now.toNat < timestamp.toNat + interval.toNat ∨ (interval = 0 ∧ now = timestamp))

theorem lags_self (interval now : UInt64) : Lags interval now now := by
  refine ⟨Nat.le_refl _, ?_⟩
  by_cases hzero : interval = 0
  · exact .inr ⟨hzero, rfl⟩
  · have hpos : interval.toNat ≠ 0 := fun h => hzero (UInt64.toNat_inj.mp h)
    exact .inl (by omega)

/-- As long as the time shown is the one that was taken up last, it lags behind no more than it may. -/
theorem lags_refresh (hcurrent : source.refreshedAt = source.timestamp)
    (hnow : source.timestamp.toNat ≤ now.toNat) :
    (source.refresh now).refreshedAt = (source.refresh now).timestamp
      ∧ Lags source.interval now (source.refresh now).timestamp := by
  rw [refresh]
  split
  · have htaken : (if source.timestamp < now then now else source.timestamp) = now := by
      split
      · rfl
      · have hle : now.toNat ≤ source.timestamp.toNat := Nat.le_of_not_lt ‹_›
        exact UInt64.toNat_inj.mp (Nat.le_antisymm hnow hle)
    dsimp only
    rw [htaken]
    exact ⟨rfl, lags_self _ _⟩
  · refine ⟨hcurrent, hnow, .inl ?_⟩
    rw [hcurrent] at *
    omega

/-! ## Many identifiers -/

/-- The last of a number of identifiers, each made at the next reading of the clock, and the source
after it.  The first reading is that of the making of the source. -/
def run (source : Identity) (clock : Clock) : Nat → String × Identity
  | 0 => (source.text, source)
  | k + 1 => (run source clock k).2.next (clock (k + 1))

/-- The clock does not go back until its reading number `k`. -/
def Forward (clock : Clock) (k : Nat) : Prop := ∀ i < k, (clock i).toNat ≤ (clock (i + 1)).toNat

/-- What is known of a source that was made with this label and has made `k` identifiers. -/
structure Issuing (label : String) (interval : UInt64) (clock : Clock) (k : Nat) (source : Identity) :
    Prop where
  label_eq : source.label = label.toLower
  interval_eq : source.interval = interval
  serial_eq : source.serial = UInt64.ofNat k
  /-- The time is a reading of the clock. -/
  seen : ∃ i ≤ k, source.timestamp = clock i
  /-- If the clock never went back, the time is the reading that was taken up last. -/
  current : Forward clock k →
    source.refreshedAt = source.timestamp ∧ Lags interval (clock k) source.timestamp

theorem issuing_create (interval : UInt64) (clock : Clock) (h : isLabel label = true) :
    ∃ source, create label interval (clock 0) = .ok source
      ∧ Issuing label interval clock 0 source := by
  refine ⟨_, if_pos h, rfl, rfl, rfl, ⟨0, Nat.le_refl _, rfl⟩, ?_⟩
  intro _
  exact ⟨rfl, lags_self _ _⟩

/-- One identifier more. -/
theorem Issuing.next {k : Nat} (h : Issuing label interval clock k source) :
    Issuing label interval clock (k + 1) (source.next (clock (k + 1))).2 where
  label_eq := label_refresh.trans h.label_eq
  interval_eq := interval_refresh.trans h.interval_eq
  serial_eq := by
    rw [serial_next, h.serial_eq, UInt64.ofNat_add]
    rfl
  seen := by
    show ∃ i ≤ k + 1, (source.refresh (clock (k + 1))).timestamp = clock i
    rcases timestamp_refresh source (clock (k + 1)) with hkept | htaken
    · obtain ⟨i, hi, hclock⟩ := h.seen
      exact ⟨i, Nat.le_succ_of_le hi, hkept.trans hclock⟩
    · exact ⟨k + 1, Nat.le_refl _, htaken⟩
  current := by
    intro hforward
    obtain ⟨hcurrent, hbefore, -⟩ := h.current fun i hi => hforward i (Nat.lt_succ_of_lt hi)
    have hnow := Nat.le_trans hbefore (hforward k (Nat.lt_succ_self k))
    rw [← h.interval_eq]
    exact lags_refresh hcurrent hnow

theorem issuing_run (h : Issuing label interval clock 0 source) (k : Nat) :
    Issuing label interval clock k (source.run clock k).2 := by
  induction k with
  | zero => exact h
  | succ k ih => exact ih.next

theorem run_fst (source : Identity) (clock : Clock) (k : Nat) :
    (source.run clock k).1 = (source.run clock k).2.text := by
  cases k with
  | zero => rfl
  | succ k => rfl

/-- Over any number of identifiers the time does not go back. -/
theorem timestamp_run_le (source : Identity) (clock : Clock) {j k : Nat} (hjk : j ≤ k) :
    (source.run clock j).2.timestamp.toNat ≤ (source.run clock k).2.timestamp.toNat := by
  induction hjk with
  | refl => exact Nat.le_refl _
  | step _ ih => exact Nat.le_trans ih (timestamp_le_refresh _ _)

/-! ## The order of identifiers -/

/-- The identifiers of a source made with this label and interval, of which it makes `count`, and the
times that they show.  Identifier `k` is made at reading `k` of the clock. -/
structure IssuesInOrder (label : String) (interval : UInt64) (clock : Clock) (count : Nat)
    (id : Nat → String) (time : Nat → UInt64) : Prop where
  /-- An identifier is the label in lower case, eight digits of a time, and sixteen of its number. -/
  parts : ∀ k ≤ count, id k = label.toLower ++ String.ofList (hexDigits timeLength (time k).toNat)
    ++ String.ofList (hexDigits serialLength k)
  length : ∀ k ≤ count, (id k).length = 28
  /-- The time never goes back. -/
  forward : ∀ j k, j ≤ k → k ≤ count → (time j).toNat ≤ (time k).toNat
  /-- The time is one that the clock has shown. -/
  seen : ∀ k ≤ count, ∃ i ≤ k, time k = clock i
  increasing : ∀ j k, j < k → k ≤ count → id j < id k
  /-- The serial is counted on from the one before, which are zeros at first. -/
  successor : ∀ k < count,
    (id (k + 1)).toList.drop 12 = hexSuccessor ((id k).toList.drop 12)
  /-- The time lags less than the interval behind a clock that does not go back. -/
  lags : ∀ k ≤ count, Forward clock k → Lags interval (clock k) (time k)

/-- The parts of an identifier have fixed places. -/
theorem Issuing.toList_text {k : Nat} (h : Issuing label interval clock k source)
    (hk : k < UInt64.size) : source.text.toList = label.toLower.toList
      ++ (hexDigits timeLength source.timestamp.toNat ++ hexDigits serialLength k) := by
  rw [Identity.toList_text, h.label_eq, h.serial_eq, UInt64.toNat_ofNat_of_lt' hk]

theorem length_toLower_of_isLabel (h : isLabel label = true) : label.toLower.toList.length = 4 := by
  rw [isLabel, Bool.and_eq_true, beq_iff_eq] at h
  show (label.map Char.toLower).toList.length = 4
  rw [String.toList_map, List.length_map]
  exact h.1

/-- Whatever a clock shows, a source that is made with a valid label issues its identifiers in order. -/
theorem ordered_of_create (label : String) (interval : UInt64) (clock : Clock) (count : Nat)
    (hlabel : isLabel label = true) (hcount : count < UInt64.size)
    (hclock : ∀ k ≤ count, (clock k).toNat < UInt32.size) :
    ∃ source, create label interval (clock 0) = .ok source
      ∧ IssuesInOrder label interval clock count (fun k => (source.run clock k).1)
          fun k => (source.run clock k).2.timestamp := by
  obtain ⟨source, hcreate, hstart⟩ := issuing_create interval clock hlabel
  have hrun := issuing_run hstart
  have hsize : ∀ k ≤ count, k < UInt64.size := fun k hk => Nat.lt_of_le_of_lt hk hcount
  have htext : ∀ k ≤ count, (source.run clock k).1.toList = label.toLower.toList
      ++ (hexDigits timeLength (source.run clock k).2.timestamp.toNat ++ hexDigits serialLength k) := by
    intro k hk
    rw [run_fst]
    exact (hrun k).toList_text (hsize k hk)
  have hlength := length_toLower_of_isLabel hlabel
  have hdrop : ∀ k ≤ count,
      (source.run clock k).1.toList.drop 12 = hexDigits serialLength k := by
    intro k hk
    rw [htext k hk, ← List.append_assoc, List.drop_left']
    rw [List.length_append, hlength, length_hexDigits]
    rfl
  refine ⟨source, hcreate, ?_⟩
  constructor
  case parts =>
    intro k hk
    rw [← String.toList_inj, htext k hk]
    simp
  case length =>
    intro k hk
    rw [← String.length_toList, htext k hk, List.length_append, List.length_append, hlength,
      length_hexDigits, length_hexDigits]
    rfl
  case forward =>
    intro j k hjk _
    exact timestamp_run_le source clock hjk
  case seen =>
    intro k _
    exact (hrun k).seen
  case increasing =>
    intro j k hjk hk
    rw [run_fst, run_fst]
    apply text_lt_text
    · rw [(hrun j).label_eq, (hrun k).label_eq]
    · exact timestamp_run_le source clock (Nat.le_of_lt hjk)
    · obtain ⟨i, hi, hseen⟩ := (hrun k).seen
      rw [hseen]
      exact hclock i (Nat.le_trans hi hk)
    · rw [(hrun j).serial_eq, (hrun k).serial_eq,
        UInt64.toNat_ofNat_of_lt' (hsize j (Nat.le_trans (Nat.le_of_lt hjk) hk)),
        UInt64.toNat_ofNat_of_lt' (hsize k hk)]
      exact hjk
  case successor =>
    intro k hk
    rw [hdrop (k + 1) hk, hdrop k (Nat.le_of_lt hk), hexSuccessor_hexDigits]
  case lags =>
    intro k _ hforward
    exact ((hrun k).current hforward).2

/-- A clock that goes back once. -/
def unsteady : Clock := fun k => ([100, 105, 110, 50, 119][k]?).getD 0

theorem ordered_of_create_unsteady :
    ∃ source, create "AB12" 10 (unsteady 0) = .ok source
      ∧ (source.run unsteady 4).1 = "ab120000006e0000000000000004"
      ∧ IssuesInOrder "AB12" 10 unsteady 4 (fun k => (source.run unsteady k).1)
          fun k => (source.run unsteady k).2.timestamp := by
  obtain ⟨source, hcreate, hordered⟩ :=
    ordered_of_create "AB12" 10 unsteady 4 (by decide) (by decide) (by decide)
  refine ⟨source, hcreate, ?_, hordered⟩
  cases hcreate
  decide +kernel

end DocStore.Identity
