import Intake.Double.Arithmetic
import Intake.Proofs.Magnitude
import Intake.Proofs.Rounding

/-!
This module contains that rounding to a whole number is exact, although it is computed with a
difference and a sum of doubles that could be rounded themselves. The difference between a number
and the whole number below it is either a double or at least a half, and the whole numbers next to a
double are doubles.
-/

namespace Intake

open Intake.Finite

namespace Finite

variable {x : Finite} {i : Int}

def floorAddHalf (x : Finite) : Int :=
  (2 * x.scaled + one) / (2 * one)

theorem one_pos_int : (0 : Int) < one := by
  exact_mod_cast one_pos

theorem shiftLeft_dvd_units {k : Nat} (h : 2 ^ 52 * 1 <<< k ≤ x.units) : 1 <<< k ∣ x.units := by
  rw [Nat.one_shiftLeft, ← Nat.pow_add] at h
  have hdvd := Double.two_pow_dvd_of_representable x.representable h
  rwa [Nat.add_sub_cancel_left, ← Nat.one_shiftLeft] at hdvd

theorem units_lt_of_not_dvd (h : ¬ one ∣ x.units) : x.units < 2 ^ 52 * one := by
  by_contra hle
  exact h (shiftLeft_dvd_units (not_lt.mp hle))

theorem exists_eq_mul_one_of_dvd (h : one ∣ x.units) : ∃ i : Int, x.scaled = i * one := by
  refine ⟨x.scaled / one, toInt?_eq_some_iff.mp ?_⟩
  rw [toInt?, if_pos (Nat.mod_eq_zero_of_dvd h)]

theorem scaled_of_units_eq_zero (h : x.units = 0) : x.scaled = 0 * one := by
  have habs := x.natAbs_scaled
  omega

theorem scaled_div_bounds (x : Finite) :
    x.scaled / one * one ≤ x.scaled ∧ x.scaled < x.scaled / one * one + one := by
  have hhigh := Int.lt_ediv_add_one_mul_self x.scaled one_pos_int
  rw [Int.add_mul, Int.one_mul] at hhigh
  exact ⟨Int.ediv_mul_le x.scaled one_pos_int.ne', hhigh⟩

theorem floorAddHalf_of_scaled_eq (h : x.scaled = i * one) : x.floorAddHalf = i := by
  have hone := one_pos_int
  unfold floorAddHalf
  rw [Int.ediv_eq_iff_of_pos (by omega), h, Int.mul_left_comm]
  omega

theorem floorAddHalf_eq (x : Finite) :
    x.floorAddHalf =
      if (one : Int) ≤ 2 * (x.scaled - x.scaled / one * one) then x.scaled / one + 1
      else x.scaled / one := by
  have hone := one_pos_int
  obtain ⟨hlow, hhigh⟩ := x.scaled_div_bounds
  unfold floorAddHalf
  generalize x.scaled / one = below at *
  rw [Int.ediv_eq_iff_of_pos (by omega)]
  split
  . rw [Int.mul_left_comm, Int.add_mul, Int.one_mul]
    omega
  . rw [Int.mul_left_comm]
    omega

end Finite

namespace Double

variable {x y : Finite} {i : Int}

theorem exists_eq_finite {n : Double} (h : n.isFinite = true) : ∃ x, n = finite x := by
  cases n with
  | finite x => exact ⟨x, rfl⟩
  | _ => simp [isFinite] at h

theorem exists_ofInt_of_natAbs_le (h : i.natAbs ≤ 9007199254740992) :
    ∃ y, ofInt i = finite y ∧ y.scaled = i * one := by
  have hfinite : (ofInt i).isFinite = true := by
    apply isFinite_ofInt
    calc
      2 * i.natAbs + 1 < 1 <<< 66 := by omega
      _ ≤ 1 <<< 1024 := by decide
  obtain ⟨y, hy⟩ := exists_eq_finite hfinite
  exact ⟨y, hy, scaled_of_ofInt hy h⟩

theorem exists_ofInt_of_near (h : (i * one - x.scaled).natAbs < one) :
    ∃ y, ofInt i = finite y ∧ y.scaled = i * one := by
  by_cases hdvd : one ∣ x.units
  . obtain ⟨j, hj⟩ := exists_eq_mul_one_of_dvd hdvd
    have hdist : (i - j).natAbs * one < 1 * one := by
      rwa [hj, ← Int.sub_mul, Int.natAbs_mul, Int.natAbs_natCast, ← Nat.one_mul one] at h
    have heq : i = j := by
      have hlt := Nat.lt_of_mul_lt_mul_right hdist
      omega
    rw [heq]
    exact ⟨_, ofInt_of_scaled_eq hj, scaled_withSign hj⟩
  . apply exists_ofInt_of_natAbs_le
    have hunits := units_lt_of_not_dvd hdvd
    have hsize : i.natAbs * one < (2 ^ 52 + 1) * one := by
      rw [← Int.natAbs_natCast one, ← Int.natAbs_mul]
      rw [← natAbs_scaled] at hunits
      omega
    have hlt := Nat.lt_of_mul_lt_mul_right hsize
    omega

theorem scaled_neg (x : Finite) : Finite.scaled { x with negative := !x.negative } = -x.scaled := by
  cases h : x.negative <;> simp [Finite.scaled, h]

theorem add_finite (x y : Finite) :
    (finite x).add (finite y) =
      if x.scaled + y.scaled = 0 then finite (zero (x.negative && y.negative))
      else ofScaled (x.scaled + y.scaled) := rfl

theorem sub_finite (x y : Finite) :
    (finite x).sub (finite y) =
      if x.scaled = y.scaled then finite (zero (x.negative && !y.negative))
      else ofScaled (x.scaled - y.scaled) := by
  unfold sub neg
  dsimp only
  rw [add_finite, scaled_neg, ← Int.sub_eq_add_neg]
  simp only [Int.sub_eq_zero]

theorem floor_finite (h : x.units ≠ 0) :
    ∃ y, (finite x).floor = ofInt (x.scaled / one) ∧ ofInt (x.scaled / one) = finite y ∧
      y.scaled = x.scaled / one * one := by
  obtain ⟨hlow, hhigh⟩ := x.scaled_div_bounds
  have hnear : (x.scaled / one * one - x.scaled).natAbs < one := by omega
  obtain ⟨y, hy, hscaled⟩ := exists_ofInt_of_near hnear
  refine ⟨y, ?_, hy, hscaled⟩
  rw [floor, if_neg h]

end Double

namespace Finite

variable {x y : Finite} {d : Int}

theorem two_mul_scaled_half : 2 * half.scaled = one := by
  decide +kernel

theorem one_shiftLeft_dvd {k n : Nat} (h : k ≤ n) : 1 <<< k ∣ 1 <<< n := by
  rw [Nat.one_shiftLeft, Nat.one_shiftLeft]
  exact Nat.pow_dvd_pow 2 h

theorem rest_le_units (hrest : 2 * (x.scaled - x.scaled / one * one) < one) :
    (x.scaled - x.scaled / one * one).natAbs ≤ x.units := by
  have hone := one_pos_int
  have hlow := x.scaled_div_bounds.1
  have hunits := x.natAbs_scaled
  by_cases hneg : x.scaled < 0
  . have hbelow : x.scaled / one ≤ -1 := by
      have hlt := Int.ediv_neg_of_neg_of_pos hneg hone
      omega
    have hmul := Int.mul_le_mul_of_nonneg_right hbelow hone.le
    omega
  . have hbelow := Int.mul_nonneg (Int.ediv_nonneg (not_lt.mp hneg) hone.le) hone.le
    omega

theorem representable_rest (hrest : 2 * (x.scaled - x.scaled / one * one) < one) :
    ∃ significand exponent, significand < 1 <<< 53 ∧
      (x.scaled - x.scaled / one * one).natAbs = significand <<< exponent := by
  -- The rest is a multiple of the last bit of the number and not larger than the number.
  have hle := rest_le_units hrest
  obtain ⟨significand, exponent, hlt, hunits⟩ := x.representable
  rw [Nat.shiftLeft_eq, ← Nat.one_shiftLeft] at hunits
  have hscaled : ((1 <<< exponent : Nat) : Int) ∣ x.scaled := by
    rw [← Int.dvd_natAbs, natAbs_scaled, Int.natCast_dvd_natCast, hunits]
    exact Nat.dvd_mul_left _ _
  by_cases hexponent : exponent ≤ 1074
  . have hone : ((1 <<< exponent : Nat) : Int) ∣ one :=
      Int.natCast_dvd_natCast.mpr (one_shiftLeft_dvd hexponent)
    have hdvd := Int.dvd_sub hscaled (Int.dvd_mul_of_dvd_right hone (b := x.scaled / one))
    obtain ⟨rest, hmul⟩ := Int.natAbs_dvd_natAbs.mpr hdvd
    rw [Int.natAbs_natCast, Nat.mul_comm] at hmul
    rw [hmul, hunits] at hle
    refine ⟨rest, exponent, ?_, ?_⟩
    . refine (Nat.le_of_mul_le_mul_right hle ?_).trans_lt hlt
      rw [Nat.one_shiftLeft]
      exact Nat.two_pow_pos exponent
    . rw [hmul, Nat.shiftLeft_eq rest, Nat.one_shiftLeft]
  . -- A number without a fraction leaves nothing over.
    have hone : (one : Int) ∣ (1 <<< exponent : Nat) :=
      Int.natCast_dvd_natCast.mpr (one_shiftLeft_dvd (not_le.mp hexponent).le)
    refine ⟨0, 0, by decide, ?_⟩
    rw [Int.ediv_mul_cancel (Int.dvd_trans hone hscaled), Int.sub_self]
    rfl

end Finite

namespace Double

variable {x y : Finite} {i : Int}

theorem exists_ofInt_one :
    ∃ u, ofInt 1 = finite u ∧ u.negative = false ∧ u.units = one := by
  obtain ⟨u, hu, hscaled⟩ := exists_ofInt_of_natAbs_le (i := 1) (by decide)
  have hself := hu.symm.trans (ofInt_of_scaled_eq hscaled)
  rw [finite.injEq] at hself
  refine ⟨u, hu, ?_, ?_⟩
  . rw [hself]
    rfl
  . rw [units_eq_of_scaled_eq hscaled]
    exact Nat.one_mul one

theorem add_ofInt_one (hy : y.scaled = i * one) : (finite y).add (ofInt 1) = ofInt (i + 1) := by
  obtain ⟨u, hu, hnegative, hunits⟩ := exists_ofInt_one
  have hsum : y.scaled + u.scaled = (i + 1) * one := by
    rw [hy, Int.add_mul, Int.one_mul, Finite.scaled, hnegative, hunits]
    rfl
  rw [hu, add_finite, hsum, hnegative, Bool.and_false]
  split
  . next hzero =>
    have hnext : i + 1 = 0 := (Int.mul_eq_zero.mp hzero).resolve_right one_pos_int.ne'
    rw [hnext]
    decide +kernel
  . exact (ofInt_eq_ofScaled (i + 1)).symm

theorem half_le_sub_floor (hy : y.scaled = x.scaled / one * one) :
    (finite Finite.half).le ((finite x).sub (finite y)) =
      decide ((one : Int) ≤ 2 * (x.scaled - x.scaled / one * one)) := by
  have hone := one_pos_int
  have hhalf := two_mul_scaled_half
  obtain ⟨hlow, hhigh⟩ := x.scaled_div_bounds
  rw [sub_finite, hy]
  split
  . next heq =>
    rw [le_finite, scaled_zero, decide_eq_decide, ← heq]
    omega
  . next hne =>
    obtain ⟨u, _, _, hu⟩ := exists_ofInt_one
    have hfinite : (ofScaled (x.scaled - x.scaled / one * one)).isFinite = true := by
      apply isFinite_ofScaled (x := u)
      omega
    obtain ⟨z, hz⟩ := exists_eq_finite hfinite
    rw [hz, le_finite, decide_eq_decide]
    by_cases hrest : 2 * (x.scaled - x.scaled / one * one) < one
    . have hexact := scaled_of_ofScaled hz (representable_rest hrest)
      omega
    . have habove := (scaled_bounds_of_ofScaled hz Finite.half).2 (by omega)
      omega

theorem roundHalfUp_finite (x : Finite) :
    (finite x).roundHalfUp = if x.units = 0 then finite x else ofInt x.floorAddHalf := by
  unfold roundHalfUp
  by_cases hzero : x.units = 0
  . have hfloor : (finite x).floor = finite x := if_pos hzero
    rw [if_pos hzero, hfloor, sub_finite, if_pos rfl, le_finite, scaled_zero, if_neg]
    decide +kernel
  . obtain ⟨y, hfloor, hy, hscaled⟩ := floor_finite hzero
    rw [if_neg hzero, floorAddHalf_eq, hfloor, hy, half_le_sub_floor hscaled]
    simp only [decide_eq_true_eq]
    split
    . exact add_ofInt_one hscaled
    . exact hy.symm

theorem roundHalfUp_infinite (negative : Bool) :
    (infinite negative).roundHalfUp = infinite negative := by
  cases negative <;> rfl

theorem exists_roundHalfUp (x : Finite) :
    ∃ y, (finite x).roundHalfUp = finite y ∧ y.scaled = x.floorAddHalf * one := by
  by_cases hzero : x.units = 0
  . have hscaled := scaled_of_units_eq_zero hzero
    refine ⟨x, ?_, ?_⟩
    . rw [roundHalfUp_finite, if_pos hzero]
    . rw [floorAddHalf_of_scaled_eq hscaled, hscaled]
  . obtain ⟨hlow, hhigh⟩ := x.scaled_div_bounds
    have hnear : (x.floorAddHalf * one - x.scaled).natAbs < one := by
      rw [floorAddHalf_eq]
      split
      . rw [Int.add_mul, Int.one_mul]
        omega
      . omega
    obtain ⟨y, hy, hscaled⟩ := exists_ofInt_of_near hnear
    refine ⟨y, ?_, hscaled⟩
    rw [roundHalfUp_finite, if_neg hzero, hy]

theorem exists_scaled_of_roundHalfUp {n : Double} (h : n.roundHalfUp = finite y) :
    ∃ j : Int, y.scaled = j * one := by
  cases n with
  | finite x =>
    obtain ⟨z, hz, hscaled⟩ := exists_roundHalfUp x
    rw [hz, finite.injEq] at h
    exact ⟨x.floorAddHalf, h ▸ hscaled⟩
  | infinite negative => simp [roundHalfUp_infinite] at h
  | nan => simp [roundHalfUp, sub, add, floor] at h

theorem roundHalfUp_of_scaled_eq (h : x.scaled = i * one) : (finite x).roundHalfUp = finite x := by
  rw [roundHalfUp_finite]
  split
  . rfl
  . next hunits =>
    rw [floorAddHalf_of_scaled_eq h, ofInt_of_scaled_eq h, ← negative_eq_of_scaled_eq h hunits]

theorem trunc_finite (x : Finite) :
    ∃ t, (finite x).trunc = finite t ∧ t.negative = x.negative ∧ t.units = x.units / one * one := by
  have hrepresentable : ∃ significand exponent, significand < 1 <<< 53 ∧
      x.units / one * one = significand <<< exponent := by
    by_cases hdvd : one ∣ x.units
    . rw [Nat.div_mul_cancel hdvd]
      exact x.representable
    . apply representable_of_natAbs_le (i := (x.units / one : Nat))
      have hlt := Nat.div_lt_of_lt_mul (Nat.mul_comm _ _ ▸ units_lt_of_not_dvd hdvd)
      rw [Int.natAbs_natCast]
      omega
  have hround := roundUnits_of_representable hrepresentable
  have hlt : x.units / one * one < limit := (Nat.div_mul_le_self _ _).trans_lt x.bounded
  refine ⟨⟨x.negative, x.units / one * one, hrepresentable, hlt⟩, ?_, rfl, rfl⟩
  unfold trunc ofRatio
  simp only [hround, dif_pos hlt]

theorem eq_zero_of_isZero_ofScaled {i : Int} (h : (ofScaled i).isZero = true) : i = 0 := by
  by_contra hne
  have hle := le_roundUnits_of_le (n := i.natAbs) (b := 1) ⟨1, 0, by decide, rfl⟩ (by omega)
  unfold ofScaled ofRatio at h
  split at h
  . simp only [isZero, decide_eq_true_eq] at h
    omega
  . simp [isZero] at h

theorem isZero_fract_iff (x : Finite) : (finite x).fract.isZero = true ↔ one ∣ x.units := by
  -- The difference is rounded, but it becomes zero only if it is zero before.
  obtain ⟨t, htrunc, hnegative, hunits⟩ := trunc_finite x
  have heq : x.scaled = t.scaled ↔ one ∣ x.units := by
    rw [Nat.dvd_iff_div_mul_eq, ← hunits]
    unfold Finite.scaled
    rw [hnegative]
    split <;> omega
  unfold fract
  rw [htrunc, sub_finite, ← heq]
  split
  . next hscaled => simp [isZero, zero, hscaled]
  . next hne =>
    simp only [hne, iff_false]
    intro hzero
    have hdiff := eq_zero_of_isZero_ofScaled hzero
    omega

theorem toInt64_of_scaled_eq (h : x.scaled = i * one)
    (hrange : -9223372036854775808 ≤ i ∧ i < 9223372036854775808) : (finite x).toInt64 = i := by
  dsimp only [toInt64]
  rw [h, Int.mul_tdiv_cancel _ one_pos_int.ne']
  omega

end Double

end Intake
