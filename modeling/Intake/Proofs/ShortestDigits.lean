import Intake.Proofs.Interval
import Intake.Proofs.Shortest

/-!
This module contains that no decimal of fewer digits reads back than the shortest one. What reads
back is an interval, so that the search meets a decimal of as many digits if there is one, and the
interval of a double is wide enough for one of 17 digits.
-/

namespace Intake

namespace Decimal

theorem digits_go_le (fuel digits : Nat) (exponent : Int) :
    (trim.go fuel digits exponent).digits ≤ digits := by
  induction fuel generalizing digits exponent with
  | zero => exact Nat.le_refl _
  | succ fuel ih =>
    unfold trim.go
    split
    . exact (ih _ _).trans (Nat.div_le_self _ _)
    . exact Nat.le_refl _

theorem length_trim_le {d : Decimal} {count : Nat} (hcount : 0 < count)
    (h : d.digits ≤ 10 ^ count) : d.trim.digitChars.length ≤ count := by
  unfold digitChars
  rw [Nat.length_toDigits_le_iff (by decide) hcount]
  by_cases hlt : d.digits < 10 ^ count
  . exact (digits_go_le _ _ _).trans_lt hlt
  . -- A power of ten has a digit more, but its zeros are dropped.
    have heq : d.digits = 10 ^ count := le_antisymm h (not_lt.mp hlt)
    have hten : d.digits = 10 * 10 ^ (count - 1) := by
      rw [heq, ← Nat.pow_succ', Nat.succ_eq_add_one, Nat.sub_add_cancel hcount]
    have hpos : 0 < 10 ^ (count - 1) := Nat.pow_pos (by decide)
    have hlog : d.digits.log2 ≠ 0 := by
      rw [← Nat.pos_iff_ne_zero, ← Nat.succ_le_iff, Nat.le_log2 (by omega)]
      omega
    obtain ⟨fuel, hfuel⟩ := Nat.exists_eq_succ_of_ne_zero hlog
    unfold trim
    rw [hfuel]
    unfold trim.go
    rw [if_pos (by omega)]
    refine (digits_go_le _ _ _).trans_lt ?_
    omega

end Decimal

namespace Finite

/--
A decimal that reads back and has as few digits as possible.
-/
structure IsShortest (x : Finite) (d : Decimal) : Prop where
  readsBack : x.ReadsBack d
  fewest : ∀ d', x.ReadsBack d' → d.digitChars.length ≤ d'.digitChars.length

variable {x : Finite} {d : Decimal} {tie : Tie} {dropped count : Nat}

theorem units_of_dropped (digits dropped : Nat) :
    Decimal.units ⟨digits, dropped - 1074⟩ =
      Double.roundUnits (10 ^ dropped * digits) unitDigits := by
  have hexponent : (dropped : Int) - 1074 = -1074 + dropped := by omega
  rw [← units_of_expansion_exponent, hexponent]
  exact (Decimal.units_eq_of_value_eq (Decimal.value_ten_pow_mul _ _ _)).symm

theorem isSome_nearest? (tie : Tie) (digits : Nat)
    (h : Decimal.units ⟨digits, dropped - 1074⟩ = x.units) :
    (x.nearest? tie dropped).isSome = true := by
  -- What reads back is an interval around the number, so that a neighbour of the number lies in it
  -- as well.
  have hstep : 0 < 10 ^ dropped := Nat.pow_pos (by decide)
  have hbelow := Nat.mul_div_le x.expansion.digits (10 ^ dropped)
  have habove := Nat.lt_mul_div_succ x.expansion.digits hstep
  have hexact := x.roundUnits_expansion
  rw [units_of_dropped] at h
  unfold nearest?
  simp only [Nat.pow_eq]
  rw [List.find?_isSome]
  by_cases hle : digits ≤ x.expansion.digits / 10 ^ dropped
  . refine ⟨⟨x.expansion.digits / 10 ^ dropped, dropped - 1074⟩, ?_, decide_eq_true ?_⟩
    . split <;> simp
    . rw [readsBack_iff, units_of_dropped]
      apply le_antisymm
      . exact hexact ▸ Double.roundUnits_le_of_num_le unitDigits_pos hbelow
      . exact h ▸ Double.roundUnits_le_of_num_le unitDigits_pos (Nat.mul_le_mul_left _ hle)
  . refine ⟨⟨x.expansion.digits / 10 ^ dropped + 1, dropped - 1074⟩, ?_, decide_eq_true ?_⟩
    . split <;> simp
    . rw [readsBack_iff, units_of_dropped]
      apply le_antisymm
      . exact h ▸ Double.roundUnits_le_of_num_le unitDigits_pos
          (Nat.mul_le_mul_left _ (not_le.mp hle))
      . exact hexact ▸ Double.roundUnits_le_of_num_le unitDigits_pos habove.le

theorem exists_units_of_readsBack (h : x.ReadsBack d) (hcount : 0 < count)
    (hdigits : d.digits < 10 ^ count) (hlong : 10 ^ (dropped + count - 1) ≤ x.expansion.digits) :
    ∃ digits, Decimal.units ⟨digits, dropped - 1074⟩ = x.units := by
  -- The multiple is the decimal itself if its exponent is large enough, and the power of ten below
  -- the number otherwise.
  have hunits := readsBack_iff.mp h
  by_cases hexponent : (dropped : Int) - 1074 ≤ d.exponent
  . refine ⟨10 ^ (d.exponent - (dropped - 1074)).toNat * d.digits, ?_⟩
    have heq : (dropped : Int) - 1074 + (d.exponent - (dropped - 1074)).toNat = d.exponent := by
      omega
    rw [← hunits]
    apply Decimal.units_eq_of_value_eq
    rw [Decimal.value_ten_pow_mul, heq]
  . refine ⟨10 ^ (count - 1), le_antisymm ?_ ?_⟩
    . have hpow : 10 ^ dropped * 10 ^ (count - 1) ≤ x.expansion.digits := by
        rw [← Nat.pow_add, ← Nat.add_sub_assoc hcount]
        exact hlong
      rw [units_of_dropped]
      exact x.roundUnits_expansion ▸ Double.roundUnits_le_of_num_le unitDigits_pos hpow
    . rw [← hunits]
      apply Decimal.units_mono
      unfold Decimal.value
      have hcast : (d.digits : ℚ) ≤ 10 ^ count := by exact_mod_cast hdigits.le
      calc
        (d.digits : ℚ) * 10 ^ d.exponent ≤ 10 ^ count * 10 ^ d.exponent := by gcongr
        _ = 10 ^ (count + d.exponent) := by rw [zpow_add₀ (by norm_num), zpow_natCast]
        _ ≤ 10 ^ ((count - 1 : Nat) + ((dropped : Int) - 1074)) :=
          zpow_le_zpow_right₀ (by norm_num) (by omega)
        _ = ((10 ^ (count - 1) : Nat) : ℚ) * 10 ^ ((dropped : Int) - 1074) := by
          rw [zpow_add₀ (by norm_num), zpow_natCast, Nat.cast_pow, Nat.cast_ofNat]

theorem exists_units_seventeen (hunits : x.units ≠ 0)
    (hlong : 10 ^ (dropped + 16) ≤ x.expansion.digits) :
    ∃ digits, Decimal.units ⟨digits, dropped - 1074⟩ = x.units := by
  have hstep : 0 < 10 ^ dropped := Nat.pow_pos (by decide)
  have hbelow := Nat.mul_div_le x.expansion.digits (10 ^ dropped)
  have habove := Nat.lt_mul_div_succ x.expansion.digits hstep
  rw [Nat.pow_add] at hlong
  obtain heq | heq := Double.roundUnits_of_consecutive x.representable hunits unitDigits_pos hlong
    hbelow habove.le
  . exact ⟨_, (units_of_dropped _ _).trans heq⟩
  . exact ⟨_, (units_of_dropped _ _).trans heq⟩

theorem ten_pow_le_expansion (hunits : x.units ≠ 0) (count : Nat)
    (hcount : count < x.expansion.digitChars.length) : 10 ^ count ≤ x.expansion.digits := by
  by_cases hzero : count = 0
  . rw [hzero, Nat.pow_zero]
    exact Nat.mul_pos (Nat.pos_of_ne_zero hunits) unitDigits_pos
  . by_contra hlt
    have hle := (Nat.length_toDigits_le_iff (by decide) (Nat.pos_of_ne_zero hzero)).mpr
      (not_le.mp hlt)
    exact absurd hcount (not_lt.mpr hle)

theorem isSome_nearest?_of_length_le (tie : Tie) (x : Finite)
    (h : x.expansion.digitChars.length ≤ count) :
    (x.nearest? tie (x.expansion.digitChars.length - count)).isSome = true := by
  rw [Nat.sub_eq_zero_of_le h]
  apply isSome_nearest? tie x.expansion.digits
  rw [units_of_dropped, Nat.pow_zero, Nat.one_mul, roundUnits_expansion]

theorem isSome_nearest?_of_readsBack (tie : Tie) (hunits : x.units ≠ 0) (h : x.ReadsBack d)
    (hcount : 0 < count) (hdigits : d.digits < 10 ^ count) :
    (x.nearest? tie (x.expansion.digitChars.length - count)).isSome = true := by
  by_cases hle : x.expansion.digitChars.length ≤ count
  . exact isSome_nearest?_of_length_le tie x hle
  . have hlong := ten_pow_le_expansion hunits (x.expansion.digitChars.length - count + count - 1)
      (by omega)
    obtain ⟨digits, heq⟩ := exists_units_of_readsBack h hcount hdigits hlong
    exact isSome_nearest? tie digits heq

theorem isSome_nearest?_seventeen (tie : Tie) (hunits : x.units ≠ 0) :
    (x.nearest? tie (x.expansion.digitChars.length - 17)).isSome = true := by
  by_cases hle : x.expansion.digitChars.length ≤ 17
  . exact isSome_nearest?_of_length_le tie x hle
  . have hlong := ten_pow_le_expansion hunits (x.expansion.digitChars.length - 17 + 16) (by omega)
    obtain ⟨digits, heq⟩ := exists_units_seventeen hunits hlong
    exact isSome_nearest? tie digits heq

theorem digits_le_of_nearest? (h : x.nearest? tie dropped = some d) :
    d.digits ≤ x.expansion.digits / 10 ^ dropped + 1 := by
  have hmem := List.mem_of_find?_eq_some h
  simp only [Nat.pow_eq] at hmem
  split at hmem
  all_goals
    simp only [List.mem_cons, List.not_mem_nil, or_false] at hmem
    obtain rfl | rfl := hmem <;> simp

theorem digits_le_ten_pow (h : x.nearest? tie (x.expansion.digitChars.length - count) = some d) :
    d.digits ≤ 10 ^ count := by
  have hlength : 0 < x.expansion.digitChars.length := Nat.length_toDigits_pos
  have hlt : x.expansion.digits < 10 ^ x.expansion.digitChars.length :=
    (Nat.length_toDigits_le_iff (by decide) hlength).mp (Nat.le_refl _)
  have hdiv : x.expansion.digits / 10 ^ (x.expansion.digitChars.length - count) < 10 ^ count := by
    rw [Nat.div_lt_iff_lt_mul (Nat.pow_pos (by decide)), ← Nat.pow_add]
    exact hlt.trans_le (Nat.pow_le_pow_right (by decide) (by omega))
  have hle := digits_le_of_nearest? h
  omega

theorem exists_first_of_findSome? {α : Type} {f : Nat → Option α} {n : Nat} {a : α}
    (h : (List.range n).findSome? f = some a) :
    ∃ i, f i = some a ∧ ∀ j < i, f j = none := by
  obtain ⟨front, i, back, hsplit, hfound, hnone⟩ := List.findSome?_eq_some_iff.mp h
  refine ⟨i, hfound, ?_⟩
  intro j hj
  have hsorted := List.pairwise_lt_range (n := n)
  have hmem : i ∈ List.range n := by simp [hsplit]
  have hmem' : j ∈ List.range n := List.mem_range.mpr (hj.trans (List.mem_range.mp hmem))
  rw [hsplit, List.pairwise_append, List.pairwise_cons] at hsorted
  rw [hsplit, List.mem_append, List.mem_cons] at hmem'
  obtain hfront | rfl | hback := hmem'
  . exact hnone j hfront
  . exact absurd hj (Nat.lt_irrefl _)
  . exact absurd (hsorted.2.1.1 j hback) (Nat.lt_asymm hj)

theorem length_shortest_le (tie : Tie) (hunits : x.units ≠ 0) (h : x.ReadsBack d) :
    (x.shortest tie).digitChars.length ≤ d.digitChars.length := by
  have hlength : 0 < d.digitChars.length := Nat.length_toDigits_pos
  have hdigits : d.digits < 10 ^ d.digitChars.length :=
    (Nat.length_toDigits_le_iff (by decide) hlength).mp (Nat.le_refl _)
  -- Something is found with as many digits as the decimal has, or with 17.
  have hsome : ∃ count < d.digitChars.length, count < 17 ∧
      (x.nearest? tie (x.expansion.digitChars.length - (count + 1))).isSome = true := by
    by_cases hshort : d.digitChars.length ≤ 17
    . refine ⟨d.digitChars.length - 1, by omega, by omega, ?_⟩
      rw [Nat.sub_add_cancel hlength]
      exact isSome_nearest?_of_readsBack tie hunits h hlength hdigits
    . exact ⟨16, by omega, by omega, isSome_nearest?_seventeen tie hunits⟩
  obtain ⟨count, hlt, hrange, hcount⟩ := hsome
  unfold shortest
  dsimp only
  generalize hfound : List.findSome? _ _ = found
  cases found with
  | none =>
    rw [List.findSome?_eq_none_iff] at hfound
    rw [hfound count (List.mem_range.mpr hrange)] at hcount
    contradiction
  | some shortest =>
    obtain ⟨first, hfirst, hnone⟩ := exists_first_of_findSome? hfound
    have hle : first ≤ count := by
      by_contra hgt
      rw [hnone count (not_le.mp hgt)] at hcount
      contradiction
    calc
      shortest.trim.digitChars.length ≤ first + 1 :=
        Decimal.length_trim_le (Nat.succ_pos first) (digits_le_ten_pow hfirst)
      _ ≤ d.digitChars.length := by omega

theorem isShortest_shortest (tie : Tie) (hunits : x.units ≠ 0) : x.IsShortest (x.shortest tie) where
  readsBack := x.readsBack_shortest tie
  fewest := fun _ h => length_shortest_le tie hunits h

end Finite

end Intake
