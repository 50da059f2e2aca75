/-!
This module contains insertion-ordered dictionaries: lists of key-value pairs in which the first
pair of a key counts. `insert` keeps the position of a key that is already present and `erase` the
order of the others, so the order of the pairs is the order in which keys were first seen.
-/

namespace Intake

abbrev Entries (α : Type) := List (String × α)

namespace Entries

variable {α : Type}

def keys (entries : Entries α) : List String :=
  entries.map Prod.fst

def get? : Entries α → String → Option α
  | [], _ => none
  | (key, value) :: rest, k => if key = k then some value else get? rest k

def insert : Entries α → String → α → Entries α
  | [], k, v => [(k, v)]
  | (key, value) :: rest, k, v =>
    if key = k then (k, v) :: rest else (key, value) :: insert rest k v

def erase : Entries α → String → Entries α
  | [], _ => []
  | (key, value) :: rest, k => if key = k then rest else (key, value) :: erase rest k

def ofList (pairs : List (String × α)) : Entries α :=
  pairs.foldl (fun entries pair => entries.insert pair.1 pair.2) []

@[simp]
theorem keys_nil : keys ([] : Entries α) = [] := rfl

@[simp]
theorem keys_cons (key : String) (value : α) (rest : Entries α) :
    keys ((key, value) :: rest) = key :: keys rest := rfl

@[simp]
theorem get?_nil (k : String) : get? ([] : Entries α) k = none := rfl

theorem get?_cons (key : String) (value : α) (rest : Entries α) (k : String) :
    get? ((key, value) :: rest) k = if key = k then some value else get? rest k := rfl

theorem get?_eq_none_iff (entries : Entries α) (k : String) :
    entries.get? k = none ↔ k ∉ entries.keys := by
  induction entries with
  | nil => simp
  | cons pair rest ih =>
    obtain ⟨key, value⟩ := pair
    by_cases h : key = k
    . simp [get?_cons, h]
    . simp [get?_cons, h, ih, Ne.symm h]

theorem get?_insert (entries : Entries α) (k k' : String) (v : α) :
    (entries.insert k v).get? k' = if k = k' then some v else entries.get? k' := by
  induction entries with
  | nil => simp [insert, get?_cons]
  | cons pair rest ih =>
    obtain ⟨key, value⟩ := pair
    by_cases h : key = k
    . subst h
      by_cases h' : key = k' <;> simp [insert, get?_cons, h']
    . by_cases h' : key = k'
      . subst h'
        simp [insert, get?_cons, h, Ne.symm h]
      . simp [insert, get?_cons, h, h', ih]

theorem keys_insert (entries : Entries α) (k : String) (v : α) :
    (entries.insert k v).keys = if k ∈ entries.keys then entries.keys else entries.keys ++ [k] := by
  induction entries with
  | nil => simp [insert]
  | cons pair rest ih =>
    obtain ⟨key, value⟩ := pair
    by_cases h : key = k
    . simp [insert, h]
    . simp only [insert, h, if_false, keys_cons, ih, List.mem_cons, Ne.symm h, false_or]
      split <;> simp

theorem nodup_keys_insert {entries : Entries α} (h : entries.keys.Nodup) (k : String) (v : α) :
    (entries.insert k v).keys.Nodup := by
  rw [keys_insert]
  split
  . exact h
  . rename_i hk
    rw [List.nodup_append]
    refine ⟨h, by simp, ?_⟩
    intro a ha b hb hab
    rw [List.mem_singleton] at hb
    exact hk (hb ▸ hab ▸ ha)

theorem keys_erase_sublist (entries : Entries α) (k : String) :
    (entries.erase k).keys.Sublist entries.keys := by
  induction entries with
  | nil => simp [erase]
  | cons pair rest ih =>
    obtain ⟨key, value⟩ := pair
    by_cases h : key = k <;> simp [erase, h, ih]

theorem get?_erase_of_ne (entries : Entries α) {k k' : String} (h : k ≠ k') :
    (entries.erase k).get? k' = entries.get? k' := by
  induction entries with
  | nil => rfl
  | cons pair rest ih =>
    obtain ⟨key, value⟩ := pair
    by_cases hk : key = k
    . subst hk
      simp [erase, get?_cons, h]
    . simp [erase, get?_cons, hk, ih]

end Entries

end Intake
