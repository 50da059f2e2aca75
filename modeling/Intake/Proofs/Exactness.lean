import Mathlib.Algebra.Order.Group.Int
import Mathlib.Tactic.Ring
import Intake.Double.Round

namespace Intake

theorem roundDiv_of_dvd {num den : Nat} (hden : 0 < den) (h : den ∣ num) :
    roundDiv num den = num / den := by
  unfold roundDiv
  rw [Nat.mod_eq_zero_of_dvd h, if_pos (by omega)]

namespace Double

theorem roundUnits_of_dvd {n : Nat} (h : 2 ^ (n.log2 - 52) ∣ n) : roundUnits n 1 = n := by
  unfold roundUnits
  rw [Nat.div_one, Nat.one_shiftLeft, roundDiv_of_dvd (Nat.two_pow_pos _) h, Nat.shiftLeft_eq,
    Nat.div_mul_cancel h]

theorem two_pow_dvd_of_representable {n k : Nat}
    (h : ∃ significand exponent, significand < 1 <<< 53 ∧ n = significand <<< exponent)
    (hle : 2 ^ k ≤ n) : 2 ^ (k - 52) ∣ n := by
  obtain ⟨significand, exponent, hlt, rfl⟩ := h
  rw [Nat.one_shiftLeft] at hlt
  rw [Nat.shiftLeft_eq] at hle ⊢
  have hsize : 2 ^ k < 2 ^ (53 + exponent) := by
    rw [Nat.pow_add]
    exact hle.trans_lt (Nat.mul_lt_mul_of_pos_right hlt (Nat.two_pow_pos _))
  have hexponent := (Nat.pow_lt_pow_iff_right (by decide)).mp hsize
  apply Nat.dvd_mul_left_of_dvd
  exact Nat.pow_dvd_pow 2 (by omega)

theorem roundUnits_of_representable {n : Nat}
    (h : ∃ significand exponent, significand < 1 <<< 53 ∧ n = significand <<< exponent) :
    roundUnits n 1 = n := by
  apply roundUnits_of_dvd
  by_cases hzero : n = 0
  . simp [hzero]
  . exact two_pow_dvd_of_representable h (Nat.log2_self_le hzero)

theorem shiftLeft_dvd_roundUnits (n exponent : Nat) :
    1 <<< exponent ∣ roundUnits (n * 1 <<< exponent) 1 := by
  rw [Nat.one_shiftLeft]
  -- Either the number is kept, or it is rounded to a multiple of a step that is larger.
  by_cases h : (n * 2 ^ exponent).log2 - 52 ≤ exponent
  . rw [roundUnits_of_dvd (Nat.dvd_mul_left_of_dvd (Nat.pow_dvd_pow 2 h) n)]
    exact Nat.dvd_mul_left _ n
  . unfold roundUnits
    rw [Nat.shiftLeft_eq (roundDiv _ _), Nat.div_one]
    apply Nat.dvd_mul_left_of_dvd
    exact Nat.pow_dvd_pow 2 (by omega)

end Double

namespace Finite

theorem one_pos : 0 < one := by
  unfold one
  rw [Nat.one_shiftLeft]
  apply Nat.pow_pos
  decide

theorem one_dvd_roundUnits (n : Nat) : one ∣ Double.roundUnits (n * one) 1 :=
  Double.shiftLeft_dvd_roundUnits n 1074

variable {x y : Finite} {i : Int}

theorem units_eq_of_scaled_eq (h : x.scaled = i * one) : x.units = i.natAbs * one := by
  rw [← natAbs_scaled, h, Int.natAbs_mul, Int.natAbs_natCast]

theorem toInt?_eq_some_iff : x.toInt? = some i ↔ x.scaled = i * one := by
  have hone : (one : Int) ≠ 0 := by
    exact_mod_cast one_pos.ne'
  unfold toInt?
  constructor
  . intro h
    split at h
    . next hmod =>
      have hdvd : (one : Int) ∣ x.scaled := by
        rw [← Int.dvd_natAbs, natAbs_scaled, Int.natCast_dvd_natCast]
        exact Nat.dvd_of_mod_eq_zero hmod
      rw [Option.some.injEq] at h
      rw [← h, Int.ediv_mul_cancel hdvd]
    . simp at h
  . intro h
    rw [if_pos, h, Int.mul_ediv_cancel _ hone]
    rw [units_eq_of_scaled_eq h, Nat.mul_mod_left]

theorem negative_eq_of_scaled_eq (h : x.scaled = i * one) (hunits : x.units ≠ 0) :
    x.negative = decide (i < 0) := by
  have hone : (0 : Int) < one := by
    exact_mod_cast one_pos
  have hneg : i < 0 ↔ x.scaled < 0 := by
    rw [h]
    constructor
    . intro hi
      exact Int.mul_neg_of_neg_of_pos hi hone
    . intro hmul
      by_contra hi
      have hnonneg := Int.mul_nonneg (not_lt.mp hi) hone.le
      omega
  rw [eq_comm, ← Bool.coe_iff_coe, decide_eq_true_eq, hneg]
  unfold scaled
  split
  . next hnegative => simp [hnegative]; omega
  . next hnegative => simp [hnegative]

theorem scaled_withSign (h : x.scaled = i * one) :
    scaled { x with negative := decide (i < 0) } = i * one := by
  have hunits : (x.units : Int) = i.natAbs * one := by
    exact_mod_cast units_eq_of_scaled_eq h
  simp only [scaled, decide_eq_true_eq]
  split
  . next hi =>
    rw [hunits, Int.ofNat_natAbs_of_nonpos (by omega), Int.neg_mul, Int.neg_neg]
  . next hi =>
    rw [hunits, Int.natAbs_of_nonneg (by omega)]

end Finite

namespace Double

open Intake.Finite

variable {x y : Finite} {i : Int}

theorem ofInt_of_scaled_eq (h : x.scaled = i * one) :
    ofInt i = finite { x with negative := decide (i < 0) } := by
  have hunits : roundUnits (i.natAbs * one) 1 = x.units := by
    rw [← units_eq_of_scaled_eq h]
    exact roundUnits_of_representable x.representable
  unfold ofInt ofRatio
  rw [dif_pos (hunits ▸ x.bounded)]
  simp only [hunits]

theorem exists_scaled_of_ofInt (h : ofInt i = finite y) : ∃ j : Int, y.scaled = j * one := by
  unfold ofInt ofRatio at h
  split at h
  . rw [finite.injEq] at h
    have hdvd : y.units % one = 0 := by
      rw [← h]
      exact Nat.mod_eq_zero_of_dvd (one_dvd_roundUnits i.natAbs)
    refine ⟨y.scaled / one, toInt?_eq_some_iff.mp ?_⟩
    rw [Finite.toInt?, if_pos hdvd]
  . simp at h

end Double

end Intake
