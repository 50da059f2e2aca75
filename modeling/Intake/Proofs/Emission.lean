import Intake.Coercion
import Intake.Proofs.Arithmetic

namespace Intake

open Intake.Finite

namespace Double

variable {x : Finite} {i : Int}

theorem exists_int64Limit :
    ∃ u, int64Limit = finite u ∧ u.scaled = 9223372036854775808 * one := by
  refine ⟨⟨false, 1 <<< 1137, ⟨1, 1137, by decide, rfl⟩, by decide +kernel⟩, ?_, ?_⟩
  . decide +kernel
  . decide +kernel

theorem in_range_iff (h : x.scaled = i * one) :
    (int64Limit.neg.le (finite x) && (finite x).lt int64Limit) = true ↔
      -9223372036854775808 ≤ i ∧ i < 9223372036854775808 := by
  have hone := one_pos_int
  obtain ⟨u, hu, hscaled⟩ := exists_int64Limit
  rw [hu, neg, le_finite, lt_finite, scaled_neg, hscaled, h, ← Int.neg_mul, Bool.and_eq_true,
    decide_eq_true_eq, decide_eq_true_eq, Int.mul_le_mul_right hone, Int.mul_lt_mul_right hone]

theorem toJson?_of_toInt? (h : x.toInt? = some i)
    (hrange : -9223372036854775808 ≤ i ∧ i < 9223372036854775808)
    (below : i < 18446744073709551616) :
    (finite x).toJson? = some (.num (.int i hrange.1 below)) := by
  have hscaled := toInt?_eq_some_iff.mp h
  have hwhole : (finite x).fract.isZero = true := by
    rw [isZero_fract_iff, units_eq_of_scaled_eq hscaled]
    exact Nat.dvd_mul_left _ _
  unfold toJson?
  rw [if_pos (by rw [hwhole, Bool.true_and, in_range_iff hscaled]; exact hrange)]
  simp only [toInt64_of_scaled_eq hscaled hrange]

theorem toJson?_finite (x : Finite) :
    (∃ i, x.toInt? = some i ∧ -9223372036854775808 ≤ i ∧ i < 9223372036854775808) ∨
      (finite x).toJson? = some (.num (.float x)) := by
  by_cases h : ((finite x).fract.isZero &&
      (int64Limit.neg.le (finite x) && (finite x).lt int64Limit)) = true
  . left
    rw [Bool.and_eq_true, isZero_fract_iff] at h
    obtain ⟨i, hscaled⟩ := exists_eq_mul_one_of_dvd h.1
    exact ⟨i, toInt?_eq_some_iff.mpr hscaled, (in_range_iff hscaled).mp h.2⟩
  . right
    unfold toJson?
    rw [if_neg h]

@[simp]
theorem toJson?_infinite (negative : Bool) : (infinite negative).toJson? = none := by
  cases negative <;> rfl

@[simp]
theorem toJson?_nan : nan.toJson? = none := rfl

end Double

end Intake
