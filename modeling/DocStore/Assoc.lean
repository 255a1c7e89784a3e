/-!
# Association lists in order

A list of pairs of a key and a value stands for a table that remembers the order in which its keys
came.  Looking a key up takes the first pair that has it; writing keeps the place of a key that is
there already and appends a new one.  A list that is built by `insert` alone has no key twice.
-/

namespace DocStore.Assoc

variable {κ α β : Type} [DecidableEq κ]

def get? : List (κ × α) → κ → Option α
  | [], _ => none
  | (k, v) :: rest, key => if k = key then some v else get? rest key

def contains (entries : List (κ × α)) (key : κ) : Bool :=
  (get? entries key).isSome

def keys (entries : List (κ × α)) : List κ :=
  entries.map Prod.fst

/-- The place of a key. -/
def index? : List (κ × α) → κ → Option Nat
  | [], _ => none
  | (k, _) :: rest, key => if k = key then some 0 else (index? rest key).map (· + 1)

/-- Replace the value of `key` where it stands, or append it. -/
def insert : List (κ × α) → κ → α → List (κ × α)
  | [], key, value => [(key, value)]
  | (k, v) :: rest, key, value =>
    if k = key then (k, value) :: rest else (k, v) :: insert rest key value

/-- Replace the value of `key`, if it is there, by its image. -/
def modify : List (κ × α) → κ → (α → α) → List (κ × α)
  | [], _, _ => []
  | (k, v) :: rest, key, f => if k = key then (k, f v) :: rest else (k, v) :: modify rest key f

/-- Leave out `key`, keeping the order of the others. -/
def erase (entries : List (κ × α)) (key : κ) : List (κ × α) :=
  entries.filter fun entry => !(entry.1 = key)

/-- Put `key` at a place, wherever it stood before; a place beyond the end is the end. -/
def insertAt (entries : List (κ × α)) (place : Nat) (key : κ) (value : α) : List (κ × α) :=
  let others := erase entries key
  others.take place ++ (key, value) :: others.drop place

/-- Insert all of `more`, in order. -/
def insertAll (entries more : List (κ × α)) : List (κ × α) :=
  more.foldl (fun all entry => insert all entry.1 entry.2) entries

/-- The table of a list of pairs in which a key may recur: its last value counts, at the place where
it came first. -/
def ofList (pairs : List (κ × α)) : List (κ × α) :=
  insertAll [] pairs

/-! ### Looking up after a change

Writing and erasing touch the given key alone. -/

attribute [local simp] get? insert modify

theorem get?_insert_self (entries : List (κ × α)) (key : κ) (value : α) :
    get? (insert entries key value) key = some value := by
  induction entries with
  | nil => simp
  | cons entry rest ih =>
    obtain ⟨k, v⟩ := entry
    by_cases h : k = key <;> simp [h, ih]

theorem get?_insert_of_ne (entries : List (κ × α)) {key other : κ} (value : α)
    (h : other ≠ key) : get? (insert entries key value) other = get? entries other := by
  induction entries with
  | nil => simp [Ne.symm h]
  | cons entry rest ih =>
    obtain ⟨k, v⟩ := entry
    by_cases hk : k = key
    · simp [hk, Ne.symm h]
    · simp [hk, ih]

theorem get?_modify_self (entries : List (κ × α)) (key : κ) (f : α → α) :
    get? (modify entries key f) key = (get? entries key).map f := by
  induction entries with
  | nil => rfl
  | cons entry rest ih =>
    obtain ⟨k, v⟩ := entry
    by_cases h : k = key <;> simp [h, ih]

theorem get?_modify_of_ne (entries : List (κ × α)) {key other : κ} (f : α → α)
    (h : other ≠ key) : get? (modify entries key f) other = get? entries other := by
  induction entries with
  | nil => rfl
  | cons entry rest ih =>
    obtain ⟨k, v⟩ := entry
    by_cases hk : k = key
    · simp [hk, Ne.symm h]
    · simp [hk, ih]

theorem get?_erase_self (entries : List (κ × α)) (key : κ) : get? (erase entries key) key = none := by
  induction entries with
  | nil => rfl
  | cons entry rest ih =>
    obtain ⟨k, v⟩ := entry
    by_cases h : k = key
    · simpa [erase, h] using ih
    · have ih' : get? (rest.filter fun e => !(e.1 = key)) key = none := ih
      simpa [erase, h] using ih'

theorem get?_erase_of_ne (entries : List (κ × α)) {key other : κ} (h : other ≠ key) :
    get? (erase entries key) other = get? entries other := by
  induction entries with
  | nil => rfl
  | cons entry rest ih =>
    obtain ⟨k, v⟩ := entry
    have ih' : get? (rest.filter fun e => !(e.1 = key)) other = get? rest other := ih
    by_cases hk : k = key
    · simpa [erase, hk, Ne.symm h] using ih'
    · have : get? ((k, v) :: rest.filter fun e => !(e.1 = key)) other = get? ((k, v) :: rest) other := by
        rw [get?, get?, ih']
      simpa [erase, hk] using this

/-! ### Keys

A table has a value for each of its keys and for no others.  Writing adds its key at the end unless
it is there. -/

theorem contains_iff_mem_keys (entries : List (κ × α)) (key : κ) :
    contains entries key = true ↔ key ∈ keys entries := by
  induction entries with
  | nil => simp [contains, keys]
  | cons entry rest ih =>
    obtain ⟨k, v⟩ := entry
    by_cases h : k = key
    · simp [contains, keys, h]
    · have ih' : (get? rest key).isSome = true ↔ key ∈ rest.map Prod.fst := ih
      simp [contains, keys, h, Ne.symm h, ih']

theorem keys_insert (entries : List (κ × α)) (key : κ) (value : α) :
    keys (insert entries key value)
      = if key ∈ keys entries then keys entries else keys entries ++ [key] := by
  induction entries with
  | nil => simp [keys]
  | cons entry rest ih =>
    obtain ⟨k, v⟩ := entry
    by_cases h : k = key
    · simp [keys, h]
    · have ih' : (insert rest key value).map Prod.fst
          = if key ∈ rest.map Prod.fst then rest.map Prod.fst else rest.map Prod.fst ++ [key] := ih
      by_cases hm : key ∈ rest.map Prod.fst <;> simp_all [keys, Ne.symm h]

theorem nodup_keys_insert {entries : List (κ × α)} (key : κ) (value : α)
    (h : (keys entries).Nodup) : (keys (insert entries key value)).Nodup := by
  rw [keys_insert]
  by_cases hm : key ∈ keys entries
  · rw [if_pos hm]
    exact h
  · rw [if_neg hm]
    refine List.nodup_append.mpr ⟨h, by simp, ?_⟩
    intro a ha b hb hab
    rw [List.mem_singleton.mp hb] at hab
    exact hm (hab ▸ ha)

end DocStore.Assoc
