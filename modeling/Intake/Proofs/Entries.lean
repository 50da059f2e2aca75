import Intake.Entries

namespace Intake

namespace Entries

variable {α : Type}

theorem mem_keys_iff (entries : Entries α) (k : String) :
    k ∈ entries.keys ↔ ∃ value, (k, value) ∈ entries := by
  simp [keys]

theorem mem_of_get?_eq_some {entries : Entries α} {k : String} {v : α}
    (h : entries.get? k = some v) : (k, v) ∈ entries := by
  induction entries with
  | nil => simp at h
  | cons pair rest ih =>
    obtain ⟨key, value⟩ := pair
    rw [get?_cons] at h
    split at h
    . next heq =>
      rw [Option.some.injEq] at h
      rw [heq, h]
      apply List.mem_cons_self
    . apply List.mem_cons_of_mem
      exact ih h

theorem get?_eq_some_iff {entries : Entries α} (nodup : entries.keys.Nodup) (k : String) (v : α) :
    entries.get? k = some v ↔ (k, v) ∈ entries := by
  refine ⟨mem_of_get?_eq_some, ?_⟩
  intro hmem
  induction entries with
  | nil => simp at hmem
  | cons pair rest ih =>
    obtain ⟨key, value⟩ := pair
    rw [keys_cons, List.nodup_cons] at nodup
    rw [get?_cons]
    cases List.mem_cons.mp hmem with
    | inl heq =>
      obtain ⟨rfl, rfl⟩ := Prod.mk.inj heq
      simp
    | inr htail =>
      have hne : key ≠ k := by
        intro heq
        apply nodup.1
        rw [heq, mem_keys_iff]
        exact ⟨v, htail⟩
      rw [if_neg hne]
      exact ih nodup.2 htail

theorem get?_eq_of_perm {entries entries' : Entries α} (nodup : entries.keys.Nodup)
    (h : entries.Perm entries') (key : String) : entries.get? key = entries'.get? key := by
  have nodup' : entries'.keys.Nodup := (h.map Prod.fst).nodup_iff.mp nodup
  apply Option.ext
  intro value
  rw [get?_eq_some_iff nodup, get?_eq_some_iff nodup']
  exact h.mem_iff

theorem get?_map (f : α → α) (entries : Entries α) (k : String) :
    get? (entries.map fun (key, value) => (key, f value)) k = (entries.get? k).map f := by
  induction entries with
  | nil => rfl
  | cons pair rest ih =>
    obtain ⟨key, value⟩ := pair
    rw [List.map_cons, get?_cons, get?_cons, ih]
    split <;> rfl

theorem keys_map (f : α → α) (entries : Entries α) :
    keys (entries.map fun (key, value) => (key, f value)) = entries.keys := by
  simp [keys]

theorem nodup_keys_erase {entries : Entries α} (nodup : entries.keys.Nodup) (k : String) :
    (entries.erase k).keys.Nodup :=
  (keys_erase_sublist entries k).nodup nodup

theorem get?_erase_self {entries : Entries α} (nodup : entries.keys.Nodup) (k : String) :
    (entries.erase k).get? k = none := by
  rw [get?_eq_none_iff]
  induction entries with
  | nil => simp [erase]
  | cons pair rest ih =>
    obtain ⟨key, value⟩ := pair
    rw [keys_cons, List.nodup_cons] at nodup
    unfold erase
    split
    . next heq => exact heq ▸ nodup.1
    . next hne =>
      rw [keys_cons, List.mem_cons, not_or]
      exact ⟨Ne.symm hne, ih nodup.2⟩

theorem mem_insert_of_ne (entries : Entries α) {k k' : String} (h : k' ≠ k) (v v' : α) :
    (k', v') ∈ entries.insert k v ↔ (k', v') ∈ entries := by
  induction entries with
  | nil => simp [insert, h]
  | cons pair rest ih =>
    obtain ⟨key, value⟩ := pair
    unfold insert
    split
    . next heq => simp [heq, h]
    . simp [ih]

theorem mem_erase_of_ne (entries : Entries α) {k k' : String} (h : k' ≠ k) (v' : α) :
    (k', v') ∈ entries.erase k ↔ (k', v') ∈ entries := by
  induction entries with
  | nil => simp [erase]
  | cons pair rest ih =>
    obtain ⟨key, value⟩ := pair
    unfold erase
    split
    . next heq => simp [heq, h]
    . simp [ih]

theorem mem_erase_iff {entries : Entries α} (nodup : entries.keys.Nodup) {k k' : String} {v : α} :
    (k', v) ∈ entries.erase k ↔ k' ≠ k ∧ (k', v) ∈ entries := by
  by_cases h : k' = k
  . subst h
    have hnot := (get?_eq_none_iff _ _).mp (get?_erase_self nodup k')
    rw [mem_keys_iff, not_exists] at hnot
    simp [hnot v]
  . simp [h, mem_erase_of_ne entries h]

theorem insert_eq_self {entries : Entries α} {k : String} {v : α} (h : entries.get? k = some v) :
    entries.insert k v = entries := by
  induction entries with
  | nil => simp at h
  | cons pair rest ih =>
    obtain ⟨key, value⟩ := pair
    rw [get?_cons] at h
    unfold insert
    split at h
    . next heq =>
      rw [Option.some.injEq] at h
      rw [if_pos heq, heq, h]
    . next hne => rw [if_neg hne, ih h]

theorem erase_eq_self {entries : Entries α} {k : String} (h : entries.get? k = none) :
    entries.erase k = entries := by
  induction entries with
  | nil => rfl
  | cons pair rest ih =>
    obtain ⟨key, value⟩ := pair
    rw [get?_cons] at h
    unfold erase
    split at h
    . simp at h
    . next hne => rw [if_neg hne, ih h]

theorem mem_of_mem_insert {entries : Entries α} {k : String} {v : α} {pair : String × α}
    (h : pair ∈ entries.insert k v) : pair ∈ entries ∨ pair = (k, v) := by
  induction entries with
  | nil => simpa [insert] using h
  | cons head rest ih =>
    obtain ⟨key, value⟩ := head
    unfold insert at h
    split at h
    . cases List.mem_cons.mp h with
      | inl heq => exact Or.inr heq
      | inr hrest => exact Or.inl (List.mem_cons_of_mem _ hrest)
    . cases List.mem_cons.mp h with
      | inl heq => exact Or.inl (heq ▸ List.mem_cons_self)
      | inr hrest => exact (ih hrest).imp_left (List.mem_cons_of_mem _)

theorem nodup_keys_foldl_insert (pairs : List (String × α)) {entries : Entries α}
    (nodup : entries.keys.Nodup) :
    (keys (pairs.foldl (fun entries pair => entries.insert pair.1 pair.2) entries)).Nodup := by
  induction pairs generalizing entries with
  | nil => exact nodup
  | cons head rest ih => exact ih (nodup_keys_insert nodup head.1 head.2)

theorem mem_of_mem_foldl_insert {pairs : List (String × α)} {entries : Entries α}
    {pair : String × α}
    (h : pair ∈ pairs.foldl (fun entries pair => entries.insert pair.1 pair.2) entries) :
    pair ∈ entries ∨ pair ∈ pairs := by
  induction pairs generalizing entries with
  | nil => exact Or.inl h
  | cons head rest ih =>
    cases ih h with
    | inl hinsert =>
      cases mem_of_mem_insert hinsert with
      | inl hentries => exact Or.inl hentries
      | inr heq => exact Or.inr (heq ▸ List.mem_cons_self)
    | inr hrest => exact Or.inr (List.mem_cons_of_mem _ hrest)

theorem nodup_keys_ofList (pairs : List (String × α)) : (ofList pairs).keys.Nodup := by
  apply nodup_keys_foldl_insert
  simp

theorem mem_of_mem_ofList {pairs : List (String × α)} {pair : String × α}
    (h : pair ∈ ofList pairs) : pair ∈ pairs := by
  cases mem_of_mem_foldl_insert h with
  | inl hnil => simp at hnil
  | inr hmem => exact hmem

end Entries

end Intake
