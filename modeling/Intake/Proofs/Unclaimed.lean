import Mathlib.Data.List.Nodup
import Intake.Proofs.Entries
import Intake.Unclaimed

namespace Intake

namespace Unclaimed

structure Follows (unclaimed : Unclaimed) (keys : List String) : Prop where
  nodup : unclaimed.places.keys.Nodup
  mem : ∀ key ∈ unclaimed.places.keys, key ∈ keys
  ordered : ∀ first ∈ unclaimed.places, ∀ second ∈ unclaimed.places,
    keys.idxOf first.1 < keys.idxOf second.1 → first.2 < second.2

structure Covers (unclaimed : Unclaimed) (keys : List String) : Prop
    extends unclaimed.Follows keys where
  complete : ∀ key ∈ keys, key ∈ unclaimed.places.keys
  bounded : ∀ pair ∈ unclaimed.places, pair.2 < unclaimed.places.length

variable {unclaimed : Unclaimed} {keys paths : List String} {key path : String}

theorem mem_keys_of_mem {pair : String × Nat} (h : pair ∈ unclaimed.places) :
    pair.1 ∈ unclaimed.places.keys :=
  List.mem_map_of_mem h

theorem covers_empty : empty.Covers [] := by
  refine ⟨⟨List.nodup_nil, ?_, ?_⟩, ?_, ?_⟩ <;> simp [empty]

theorem Covers.record_of_mem (h : unclaimed.Covers keys) (hmem : key ∈ unclaimed.places.keys) :
    (unclaimed.record key).Covers (keys ++ [key]) := by
  have hrecord : unclaimed.record key = unclaimed := by
    unfold record
    rw [if_pos hmem]
  have hidx : ∀ pair ∈ unclaimed.places, (keys ++ [key]).idxOf pair.1 = keys.idxOf pair.1 := by
    intro pair hpair
    exact List.idxOf_append_of_mem (h.mem _ (mem_keys_of_mem hpair))
  rw [hrecord]
  refine ⟨⟨h.nodup, ?_, ?_⟩, ?_, h.bounded⟩
  . intro other hother
    exact List.mem_append_left _ (h.mem other hother)
  . intro first hfirst second hsecond
    rw [hidx first hfirst, hidx second hsecond]
    exact h.ordered first hfirst second hsecond
  . intro other hother
    cases List.mem_append.mp hother with
    | inl hkeys => exact h.complete other hkeys
    | inr hlast => exact List.mem_singleton.mp hlast ▸ hmem

theorem Covers.record_of_notMem (h : unclaimed.Covers keys)
    (hnot : key ∉ unclaimed.places.keys) :
    (unclaimed.record key).Covers (keys ++ [key]) := by
  have hnew : key ∉ keys := fun hmem => hnot (h.complete key hmem)
  have hkeys : (unclaimed.record key).places.keys = unclaimed.places.keys ++ [key] := by
    simp [record, hnot, Entries.keys_insert]
  have hlength : (unclaimed.record key).places.length = unclaimed.places.length + 1 := by
    simpa [Entries.keys] using congrArg List.length hkeys
  -- A pair is one of those before, or the new one in the last place.
  have hpair : ∀ pair ∈ (unclaimed.record key).places,
      (pair ∈ unclaimed.places ∧ (keys ++ [key]).idxOf pair.1 = keys.idxOf pair.1 ∧
        keys.idxOf pair.1 < keys.length) ∨
      (pair.2 = unclaimed.places.length ∧ (keys ++ [key]).idxOf pair.1 = keys.length) := by
    intro pair hmem
    simp only [record, if_neg hnot] at hmem
    cases Entries.mem_of_mem_insert hmem with
    | inl hold =>
      have hmem := h.mem _ (mem_keys_of_mem hold)
      exact Or.inl ⟨hold, List.idxOf_append_of_mem hmem, List.idxOf_lt_length_iff.mpr hmem⟩
    | inr heq =>
      right
      rw [heq, List.idxOf_append, if_neg hnew]
      simp
  refine ⟨⟨?_, ?_, ?_⟩, ?_, ?_⟩
  . rw [hkeys, List.nodup_append]
    refine ⟨h.nodup, List.nodup_singleton key, ?_⟩
    rintro other hother _ hlast rfl
    exact hnot (List.mem_singleton.mp hlast ▸ hother)
  . intro other hother
    rw [hkeys, List.mem_append] at hother
    exact List.mem_append.mpr (hother.imp_left (h.mem other))
  . intro first hfirst second hsecond hlt
    obtain ⟨hfirst, hidx, _⟩ | ⟨_, hidx⟩ := hpair first hfirst
    . obtain ⟨hsecond, hidx', _⟩ | ⟨hplace, _⟩ := hpair second hsecond
      . rw [hidx, hidx'] at hlt
        exact h.ordered first hfirst second hsecond hlt
      . rw [hplace]
        exact h.bounded first hfirst
    . obtain ⟨_, hidx', hbound⟩ | ⟨_, hidx'⟩ := hpair second hsecond <;> omega
  . intro other hother
    rw [hkeys]
    rw [List.mem_append] at hother ⊢
    exact hother.imp_left (h.complete other)
  . intro pair hmem
    rw [hlength]
    obtain ⟨hold, _⟩ | ⟨hplace, _⟩ := hpair pair hmem
    . exact Nat.lt_succ_of_lt (h.bounded pair hold)
    . omega

theorem Covers.record (h : unclaimed.Covers keys) (key : String) :
    (unclaimed.record key).Covers (keys ++ [key]) := by
  by_cases hmem : key ∈ unclaimed.places.keys
  . exact h.record_of_mem hmem
  . exact h.record_of_notMem hmem

theorem Covers.foldl_record (h : unclaimed.Covers keys) (others : List String) :
    (others.foldl Unclaimed.record unclaimed).Covers (keys ++ others) := by
  induction others generalizing unclaimed keys with
  | nil => simpa using h
  | cons key others ih => simpa using ih (h.record key)

theorem covers_ofKeys (keys : List String) : (ofKeys keys).Covers keys :=
  covers_empty.foldl_record keys

theorem Follows.mem_keys_claim_iff (h : unclaimed.Follows keys) :
    key ∈ (unclaimed.claim path).places.keys ↔ key ∈ unclaimed.places.keys ∧ key ≠ path := by
  simp only [claim, Entries.mem_keys_iff, Entries.mem_erase_iff h.nodup, exists_and_left]
  exact and_comm

theorem Follows.claim (h : unclaimed.Follows keys) (path : String) :
    (unclaimed.claim path).Follows keys := by
  have hmem : ∀ pair ∈ (unclaimed.claim path).places, pair ∈ unclaimed.places := by
    rintro ⟨key, place⟩ hpair
    exact ((Entries.mem_erase_iff h.nodup).mp hpair).2
  refine ⟨Entries.nodup_keys_erase h.nodup path, ?_, ?_⟩
  . intro key hkey
    exact h.mem key (h.mem_keys_claim_iff.mp hkey).1
  . intro first hfirst second hsecond
    exact h.ordered first (hmem first hfirst) second (hmem second hsecond)

theorem Follows.foldl_claim (h : unclaimed.Follows keys) (paths : List String) :
    (paths.foldl Unclaimed.claim unclaimed).Follows keys := by
  induction paths generalizing unclaimed with
  | nil => exact h
  | cons path paths ih => exact ih (h.claim path)

theorem Follows.mem_keys_foldl_claim_iff (h : unclaimed.Follows keys) :
    key ∈ (paths.foldl Unclaimed.claim unclaimed).places.keys ↔
      key ∈ unclaimed.places.keys ∧ key ∉ paths := by
  induction paths generalizing unclaimed with
  | nil => simp
  | cons path paths ih =>
    rw [List.foldl_cons, ih (h.claim path), h.mem_keys_claim_iff, List.mem_cons, not_or, and_assoc]

theorem mem_leftovers_iff : key ∈ unclaimed.leftovers ↔ key ∈ unclaimed.places.keys := by
  simp [leftovers, Entries.keys]

theorem isEmpty_iff : unclaimed.isEmpty = true ↔ unclaimed.leftovers = [] := by
  simp [isEmpty, leftovers, ← List.length_eq_zero_iff]

theorem Follows.nodup_leftovers (h : unclaimed.Follows keys) : unclaimed.leftovers.Nodup :=
  ((List.mergeSort_perm _ _).map Prod.fst).nodup_iff.mpr h.nodup

theorem Follows.pairwise_leftovers (h : unclaimed.Follows keys) :
    unclaimed.leftovers.Pairwise fun first second => keys.idxOf first < keys.idxOf second := by
  have hsorted : (unclaimed.places.mergeSort fun first second => first.2 ≤ second.2).Pairwise
      fun first second => decide (first.2 ≤ second.2) = true := by
    apply List.pairwise_mergeSort
    . intro first second third
      simp only [decide_eq_true_eq]
      omega
    . intro first second
      simp only [Bool.or_eq_true, decide_eq_true_eq]
      omega
  have hdistinct := List.pairwise_map.mp h.nodup_leftovers
  unfold leftovers
  rw [List.pairwise_map]
  refine (hsorted.and hdistinct).imp_of_mem ?_
  rintro first second hfirst hsecond ⟨hplace, hne⟩
  rw [List.mem_mergeSort] at hfirst hsecond
  have hidx : keys.idxOf first.1 ≠ keys.idxOf second.1 := by
    rw [ne_eq, List.idxOf_inj (h.mem _ (mem_keys_of_mem hfirst))]
    exact hne
  have hnot : ¬ keys.idxOf second.1 < keys.idxOf first.1 := by
    intro hlt
    have hlt := h.ordered second hsecond first hfirst hlt
    rw [decide_eq_true_eq] at hplace
    omega
  omega

theorem Follows.of_perm {others : Entries Nat} (h : unclaimed.Follows keys)
    (hperm : others.Perm unclaimed.places) : (⟨others⟩ : Unclaimed).Follows keys := by
  have hkeys : others.keys.Perm unclaimed.places.keys := hperm.map Prod.fst
  refine ⟨hkeys.nodup_iff.mpr h.nodup, ?_, ?_⟩
  . intro key hkey
    exact h.mem key (hkeys.mem_iff.mp hkey)
  . intro first hfirst second hsecond
    exact h.ordered first (hperm.mem_iff.mp hfirst) second (hperm.mem_iff.mp hsecond)

/--
The order in which the table keeps its entries does not matter: a hash table, which keeps them in
no order of its own, lists the same leftovers.
-/
theorem Follows.leftovers_of_perm {others : Entries Nat} (h : unclaimed.Follows keys)
    (hperm : others.Perm unclaimed.places) :
    (⟨others⟩ : Unclaimed).leftovers = unclaimed.leftovers := by
  have hleftovers : (⟨others⟩ : Unclaimed).leftovers.Perm unclaimed.leftovers := by
    unfold leftovers
    apply List.Perm.map
    exact ((List.mergeSort_perm _ _).trans hperm).trans (List.mergeSort_perm _ _).symm
  refine hleftovers.eq_of_pairwise ?_ (h.of_perm hperm).pairwise_leftovers h.pairwise_leftovers
  intro first second _ _ hlt hgt
  omega

theorem leftovers_foldl_claim_of_perm {others : Entries Nat}
    (hperm : others.Perm (paths.foldl claim (ofKeys keys)).places) :
    (⟨others⟩ : Unclaimed).leftovers = (paths.foldl claim (ofKeys keys)).leftovers :=
  ((covers_ofKeys keys).toFollows.foldl_claim paths).leftovers_of_perm hperm

end Unclaimed

end Intake
