import Mathlib.Algebra.Order.Field.Power
import Mathlib.Algebra.Order.Ring.Rat
import Intake.Proofs.Magnitude
import Intake.Proofs.Rounding

namespace Intake

def Decimal.value (d : Decimal) : ℚ :=
  d.digits * 10 ^ d.exponent

def Decimal.units (d : Decimal) : Nat :=
  Double.roundUnits (d.digits * Nat.pow 10 d.exponent.toNat * Finite.one)
    (Nat.pow 10 (-d.exponent).toNat)

theorem ten_pow_pos (n : Nat) : 0 < Nat.pow 10 n :=
  Nat.pow_pos (by decide)

theorem Decimal.value_eq_div (d : Decimal) :
    d.value =
      (d.digits * Nat.pow 10 d.exponent.toNat : Nat) / (Nat.pow 10 (-d.exponent).toNat : Nat) := by
  have hexponent : d.exponent = (d.exponent.toNat : Int) - (-d.exponent).toNat := by omega
  rw [value]
  nth_rewrite 1 [hexponent]
  rw [zpow_sub₀ (by norm_num), zpow_natCast, zpow_natCast, ← mul_div_assoc]
  push_cast [Nat.pow_eq]
  rfl

theorem Decimal.value_ten_pow_mul (n digits : Nat) (exponent : Int) :
    value ⟨10 ^ n * digits, exponent⟩ = value ⟨digits, exponent + n⟩ := by
  rw [value, value, zpow_add₀ (by norm_num), zpow_natCast]
  push_cast
  ring

theorem Decimal.units_mono {d d' : Decimal} (h : d.value ≤ d'.value) : d.units ≤ d'.units := by
  have hpos (e : Decimal) : (0 : ℚ) < (Nat.pow 10 (-e.exponent).toNat : Nat) := by
    exact_mod_cast ten_pow_pos _
  have hcross : d.digits * Nat.pow 10 d.exponent.toNat * Nat.pow 10 (-d'.exponent).toNat ≤
      d'.digits * Nat.pow 10 d'.exponent.toNat * Nat.pow 10 (-d.exponent).toNat := by
    rw [value_eq_div, value_eq_div, div_le_div_iff₀ (hpos d) (hpos d')] at h
    exact_mod_cast h
  apply Double.roundUnits_mono (ten_pow_pos _) (ten_pow_pos _)
  rw [Nat.mul_right_comm, Nat.mul_right_comm _ Finite.one]
  exact Nat.mul_le_mul_right _ hcross

theorem Decimal.units_eq_of_value_eq {d d' : Decimal} (h : d.value = d'.value) :
    d.units = d'.units :=
  (units_mono h.le).antisymm (units_mono h.ge)

namespace Double

variable {num den digits places : Nat} {negative : Bool} {d d' : Decimal}

theorem roundUnits_eq_zero (h : 2 * num < den) : roundUnits num den = 0 := by
  have hdiv : num / den = 0 := Nat.div_eq_of_lt (by omega)
  unfold roundUnits roundDiv
  rw [hdiv, Nat.log2_zero, Nat.zero_sub, Nat.shiftLeft_zero, Nat.shiftLeft_zero, hdiv,
    Nat.mod_eq_of_lt (by omega), if_pos h]

theorem ofRatio_of_roundUnits_eq_zero (h : roundUnits num den = 0) :
    ofRatio negative num den = finite (.zero negative) := by
  unfold ofRatio
  rw [dif_pos (h ▸ Finite.limit_pos)]
  simp only [h]
  rfl

theorem ofRatio_of_limit_le (h : Finite.limit ≤ roundUnits num den) :
    ofRatio negative num den = infinite negative := by
  unfold ofRatio
  rw [dif_neg (Nat.not_lt.mpr h)]

theorem two_mul_lt_ten_pow (digits size places : Nat)
    (h : digits.log2 + 1 + (size + 1) ≤ 3 * places) :
    2 * (digits * 1 <<< size) < Nat.pow 10 places := by
  -- A power of ten is at least three times as long as its exponent, in bits.
  calc
    2 * (digits * 1 <<< size) = digits * 2 ^ (size + 1) := by rw [Nat.one_shiftLeft]; ring
    _ < 2 ^ (digits.log2 + 1) * 2 ^ (size + 1) :=
      Nat.mul_lt_mul_of_pos_right Nat.lt_log2_self (Nat.two_pow_pos _)
    _ = 2 ^ (digits.log2 + 1 + (size + 1)) := (Nat.pow_add 2 _ _).symm
    _ ≤ 2 ^ (3 * places) := Nat.pow_le_pow_right (by decide) h
    _ = (2 ^ 3) ^ places := Nat.pow_mul 2 3 places
    _ ≤ 10 ^ places := Nat.pow_le_pow_left (by decide) places

theorem two_pow_le_ten_pow (h : 310 < places) : 1 <<< 1024 ≤ Nat.pow 10 places := by
  have hbase : 1 <<< 205 ≤ 10 ^ 62 := by decide +kernel
  calc
    1 <<< 1024 ≤ (1 <<< 205) ^ 5 := by decide +kernel
    _ ≤ (10 ^ 62) ^ 5 := Nat.pow_le_pow_left hbase 5
    _ ≤ (10 ^ 62) ^ (places / 62) := Nat.pow_le_pow_right (by decide) (by omega)
    _ = 10 ^ (62 * (places / 62)) := (Nat.pow_mul 10 62 _).symm
    _ ≤ 10 ^ places := Nat.pow_le_pow_right (by decide) (Nat.mul_div_le places 62)

theorem limit_le_mul (hdigits : digits ≠ 0) (h : 310 < places) :
    Finite.limit ≤ digits * Nat.pow 10 places * Finite.one := by
  rw [Finite.limit_eq]
  apply Nat.mul_le_mul_right
  calc
    1 <<< 1024 ≤ Nat.pow 10 places := two_pow_le_ten_pow h
    _ ≤ digits * Nat.pow 10 places := Nat.le_mul_of_pos_left _ (Nat.pos_of_ne_zero hdigits)

theorem limit_representable :
    ∃ significand exponent, significand < 1 <<< 53 ∧ Finite.limit = significand <<< exponent :=
  ⟨1, 2098, by decide, rfl⟩

theorem ofDecimal_eq_ofRatio (negative : Bool) (d : Decimal) :
    ofDecimal negative d =
      ofRatio negative (d.digits * Nat.pow 10 d.exponent.toNat * Finite.one)
        (Nat.pow 10 (-d.exponent).toNat) := by
  unfold ofDecimal
  split
  . next hzero =>
    rw [hzero, Nat.zero_mul, Nat.zero_mul, ofRatio_of_roundUnits_eq_zero]
    exact roundUnits_eq_zero (ten_pow_pos _)
  . next hdigits =>
    split
    . next hlarge =>
      have hone : (-d.exponent).toNat = 0 := by omega
      rw [hone, ofRatio_of_limit_le]
      apply le_roundUnits_of_le limit_representable
      exact limit_le_mul hdigits (by omega)
    . split
      . next hsmall =>
        have hone : d.exponent.toNat = 0 := by omega
        have hlt := two_mul_lt_ten_pow d.digits 1074 (-d.exponent).toNat (by omega)
        have hpow : Nat.pow 10 0 = 1 := rfl
        rw [hone, hpow, Nat.mul_one, Finite.one,
          ofRatio_of_roundUnits_eq_zero (roundUnits_eq_zero hlt)]
      . rfl

theorem ofDecimal_of_units_eq (h : d.units = d'.units) (negative : Bool) :
    ofDecimal negative d = ofDecimal negative d' := by
  unfold Decimal.units at h
  rw [ofDecimal_eq_ofRatio, ofDecimal_eq_ofRatio]
  unfold ofRatio
  simp only [h]

theorem ofDecimal_of_value_eq (h : d.value = d'.value) (negative : Bool) :
    ofDecimal negative d = ofDecimal negative d' :=
  ofDecimal_of_units_eq (Decimal.units_eq_of_value_eq h) negative

end Double

end Intake
