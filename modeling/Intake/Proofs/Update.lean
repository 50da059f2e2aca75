import Intake.Proofs.Entries
import Intake.Proofs.Outcome
import Intake.Validator

/-!
This module contains updates, which read what stands at one key of a dictionary and put something
else there. A sequence of updates falls apart into one sequence for each key: it succeeds if these
do, and they determine what stands at the keys in the end.
-/

namespace Intake

namespace Field

theorem get?_store {entries : Entries Json} (nodup : entries.keys.Nodup) (key k : String)
    (cleaned : Option Json) :
    (store entries key cleaned).get? k = if key = k then cleaned else entries.get? k := by
  cases cleaned with
  | some value => exact Entries.get?_insert entries key k value
  | none =>
    unfold store
    dsimp only
    split
    . next heq =>
      subst heq
      exact Entries.get?_erase_self nodup key
    . next hne => exact Entries.get?_erase_of_ne entries hne

theorem nodup_keys_store {entries : Entries Json} (nodup : entries.keys.Nodup) (key : String)
    (cleaned : Option Json) : (store entries key cleaned).keys.Nodup := by
  cases cleaned with
  | some value => exact Entries.nodup_keys_insert nodup key value
  | none => exact Entries.nodup_keys_erase nodup key

theorem mem_store_of_ne (entries : Entries Json) {key k : String} (h : k ≠ key)
    (cleaned : Option Json) (value : Json) :
    (k, value) ∈ store entries key cleaned ↔ (k, value) ∈ entries := by
  cases cleaned with
  | some v => exact Entries.mem_insert_of_ne entries h v value
  | none => exact Entries.mem_erase_of_ne entries h value

theorem store_get?_self (entries : Entries Json) (key : String) :
    store entries key (entries.get? key) = entries := by
  cases h : entries.get? key with
  | some value => exact Entries.insert_eq_self h
  | none => exact Entries.erase_eq_self h

end Field

structure Update where
  key : String
  clean : Option Json → Except Rejection (Option Json)

namespace Update

def apply (entries : Entries Json) (update : Update) : Except Rejection (Entries Json) :=
  (update.clean (entries.get? update.key)).map (Field.store entries update.key)

def run (updates : List Update) (entries : Entries Json) : Except Rejection (Entries Json) :=
  updates.foldlM apply entries

def chain (updates : List Update) (key : String) (slot : Option Json) :
    Except Rejection (Option Json) :=
  (updates.filter (·.key = key)).foldlM (fun slot update => update.clean slot) slot

variable {updates : List Update} {update : Update} {entries out : Entries Json}

theorem apply_eq_ok_iff :
    apply entries update = .ok out ↔ ∃ cleaned,
      update.clean (entries.get? update.key) = .ok cleaned ∧
        Field.store entries update.key cleaned = out :=
  Except.map_eq_ok_iff _ _ _

theorem run_nil : run [] entries = .ok entries := rfl

theorem run_cons :
    run (update :: updates) entries = apply entries update >>= run updates :=
  List.foldlM_cons

theorem run_cons_eq_ok_iff :
    run (update :: updates) entries = .ok out ↔
      ∃ next, apply entries update = .ok next ∧ run updates next = .ok out := by
  rw [run_cons, Except.bind_eq_ok_iff]

theorem chain_nil (key : String) (slot : Option Json) : chain [] key slot = .ok slot := rfl

theorem chain_cons_self (slot cleaned : Option Json) :
    chain (update :: updates) update.key slot = .ok cleaned ↔
      ∃ next, update.clean slot = .ok next ∧ chain updates update.key next = .ok cleaned := by
  unfold chain
  rw [List.filter_cons_of_pos (by simp), List.foldlM_cons]
  exact Except.bind_eq_ok_iff _ _ _

theorem chain_cons_of_ne {key : String} (h : update.key ≠ key) (slot : Option Json) :
    chain (update :: updates) key slot = chain updates key slot := by
  unfold chain
  rw [List.filter_cons_of_neg (by simpa using h)]

theorem chain_append (first second : List Update) (key : String) (slot cleaned : Option Json) :
    chain (first ++ second) key slot = .ok cleaned ↔
      ∃ next, chain first key slot = .ok next ∧ chain second key next = .ok cleaned := by
  unfold chain
  rw [List.filter_append, List.foldlM_append, Except.bind_eq_ok_iff]

theorem chain_of_notMem {key : String} (h : ∀ update ∈ updates, update.key ≠ key)
    (slot : Option Json) : chain updates key slot = .ok slot := by
  have hfilter : updates.filter (·.key = key) = [] := by
    simpa [List.filter_eq_nil_iff] using h
  unfold chain
  rw [hfilter]
  rfl

theorem chain_of_mem (distinct : (updates.map (·.key)).Nodup) (hmem : update ∈ updates)
    (slot cleaned : Option Json) :
    chain updates update.key slot = .ok cleaned ↔ update.clean slot = .ok cleaned := by
  induction updates with
  | nil => simp at hmem
  | cons head tail ih =>
    rw [List.map_cons, List.nodup_cons] at distinct
    by_cases h : head.key = update.key
    . have hnot : ∀ other ∈ tail, other.key ≠ update.key := by
        intro other hother heq
        apply distinct.1
        rw [h, ← heq]
        exact List.mem_map_of_mem hother
      have hhead : head = update := by
        cases List.mem_cons.mp hmem with
        | inl heq => exact heq.symm
        | inr htail => exact absurd rfl (hnot update htail)
      subst hhead
      rw [chain_cons_self]
      simp [chain_of_notMem hnot]
    . rw [chain_cons_of_ne h]
      apply ih distinct.2
      cases List.mem_cons.mp hmem with
      | inl heq => exact absurd (congrArg key heq.symm) h
      | inr htail => exact htail

theorem nodup_keys_apply (nodup : entries.keys.Nodup) (h : apply entries update = .ok out) :
    out.keys.Nodup := by
  obtain ⟨cleaned, _, rfl⟩ := apply_eq_ok_iff.mp h
  exact Field.nodup_keys_store nodup update.key cleaned

theorem nodup_keys_run (nodup : entries.keys.Nodup) (h : run updates entries = .ok out) :
    out.keys.Nodup := by
  induction updates generalizing entries with
  | nil =>
    rw [run_nil, Except.ok.injEq] at h
    exact h ▸ nodup
  | cons update updates ih =>
    obtain ⟨next, hnext, hrest⟩ := run_cons_eq_ok_iff.mp h
    exact ih (nodup_keys_apply nodup hnext) hrest

theorem mem_run_of_notMem {key : String} (hkey : ∀ update ∈ updates, update.key ≠ key)
    (h : run updates entries = .ok out) (value : Json) :
    (key, value) ∈ out ↔ (key, value) ∈ entries := by
  induction updates generalizing entries with
  | nil =>
    rw [run_nil, Except.ok.injEq] at h
    rw [h]
  | cons update updates ih =>
    obtain ⟨next, hnext, hrest⟩ := run_cons_eq_ok_iff.mp h
    obtain ⟨cleaned, _, rfl⟩ := apply_eq_ok_iff.mp hnext
    rw [ih (fun other hother => hkey other (List.mem_cons_of_mem _ hother)) hrest]
    exact Field.mem_store_of_ne entries (hkey update List.mem_cons_self).symm cleaned value

theorem get?_run (nodup : entries.keys.Nodup) (h : run updates entries = .ok out) (key : String) :
    chain updates key (entries.get? key) = .ok (out.get? key) := by
  induction updates generalizing entries with
  | nil =>
    rw [run_nil, Except.ok.injEq] at h
    rw [h, chain_nil]
  | cons update updates ih =>
    obtain ⟨next, hnext, hrest⟩ := run_cons_eq_ok_iff.mp h
    have ih := ih (nodup_keys_apply nodup hnext) hrest
    obtain ⟨cleaned, hcleaned, rfl⟩ := apply_eq_ok_iff.mp hnext
    rw [Field.get?_store nodup] at ih
    by_cases hkey : update.key = key
    . subst hkey
      rw [if_pos rfl] at ih
      rw [chain_cons_self]
      exact ⟨cleaned, hcleaned, ih⟩
    . rw [if_neg hkey] at ih
      rw [chain_cons_of_ne hkey]
      exact ih

theorem exists_run_iff (nodup : entries.keys.Nodup) :
    (∃ out, run updates entries = .ok out) ↔
      ∀ key, ∃ slot, chain updates key (entries.get? key) = .ok slot := by
  constructor
  . rintro ⟨out, h⟩ key
    exact ⟨out.get? key, get?_run nodup h key⟩
  . intro h
    induction updates generalizing entries with
    | nil => exact ⟨entries, rfl⟩
    | cons update updates ih =>
      obtain ⟨slot, hslot⟩ := h update.key
      obtain ⟨cleaned, hcleaned, hrest⟩ := (chain_cons_self _ _).mp hslot
      have hnext := apply_eq_ok_iff.mpr ⟨cleaned, hcleaned, rfl⟩
      have hchain : ∀ key, ∃ slot, chain updates key
          ((Field.store entries update.key cleaned).get? key) = .ok slot := by
        intro key
        rw [Field.get?_store nodup]
        by_cases hkey : update.key = key
        . rw [if_pos hkey]
          exact ⟨slot, hkey ▸ hrest⟩
        . rw [if_neg hkey, ← chain_cons_of_ne hkey]
          exact h key
      obtain ⟨out, hout⟩ := ih (nodup_keys_apply nodup hnext) hchain
      exact ⟨out, run_cons_eq_ok_iff.mpr ⟨_, hnext, hout⟩⟩

theorem run_eq_self (h : ∀ update ∈ updates,
    update.clean (entries.get? update.key) = .ok (entries.get? update.key)) :
    run updates entries = .ok entries := by
  induction updates with
  | nil => rfl
  | cons update updates ih =>
    rw [run_cons_eq_ok_iff]
    refine ⟨entries, ?_, ih fun other hother => h other (List.mem_cons_of_mem _ hother)⟩
    rw [apply_eq_ok_iff]
    exact ⟨_, h update List.mem_cons_self, Field.store_get?_self entries update.key⟩

end Update

end Intake
