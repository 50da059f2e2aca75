import Intake.Decimal
import Intake.Double.Basic

namespace Intake

def roundDiv (num den : Nat) : Nat :=
  if 2 * (num % den) < den then num / den
  else if den < 2 * (num % den) then num / den + 1
  else num / den + num / den % 2

theorem roundDiv_le (num den : Nat) : roundDiv num den ≤ num / den + 1 := by
  unfold roundDiv
  split
  . omega
  . split <;> omega

namespace Double

/--
The integer of at most 53 significant bits that is nearest to `num / den`.
-/
def roundUnits (num den : Nat) : Nat :=
  roundDiv num (den <<< ((num / den).log2 - 52)) <<< ((num / den).log2 - 52)

theorem shiftRight_log2_lt (n : Nat) : n >>> (n.log2 - 52) < 1 <<< 53 := by
  rw [Nat.shiftRight_eq_div_pow, Nat.one_shiftLeft, Nat.div_lt_iff_lt_mul (Nat.two_pow_pos _),
    ← Nat.pow_add]
  calc
    n < 2 ^ (n.log2 + 1) := Nat.lt_log2_self
    _ ≤ 2 ^ (53 + (n.log2 - 52)) := Nat.pow_le_pow_right (by decide) (by omega)

theorem roundUnits_representable (num den : Nat) :
    ∃ significand exponent, significand < 1 <<< 53 ∧
      roundUnits num den = significand <<< exponent := by
  have hlt := shiftRight_log2_lt (num / den)
  have hle := roundDiv_le num (den <<< ((num / den).log2 - 52))
  rw [Nat.shiftLeft_eq, ← Nat.div_div_eq_div_mul, ← Nat.shiftRight_eq_div_pow] at hle
  unfold roundUnits
  rw [Nat.shiftLeft_eq den]
  generalize (num / den).log2 - 52 = step at *
  generalize roundDiv num (den * 2 ^ step) = nearest at *
  by_cases h : nearest < 1 <<< 53
  . exact ⟨nearest, step, h, rfl⟩
  . have : nearest = 1 <<< 53 := by omega
    exact ⟨1, 53 + step, by decide, by rw [this, Nat.shiftLeft_add]⟩

def ofRatio (negative : Bool) (num den : Nat) : Double :=
  if h : roundUnits num den < Finite.limit then
    .finite ⟨negative, roundUnits num den, roundUnits_representable num den, h⟩
  else
    .infinite negative

def ofInt (i : Int) : Double :=
  ofRatio (i < 0) (i.natAbs * Finite.one) 1

def ofDecimal (negative : Bool) (d : Decimal) : Double :=
  if d.digits = 0 then
    .finite (.zero negative)
  -- exponents far out of range are answered without computing their powers of ten
  else if 310 < d.exponent then
    .infinite negative
  else if d.digits.log2 + 1 + 3 * d.exponent < -1080 then
    .finite (.zero negative)
  else
    ofRatio negative (d.digits * Nat.pow 10 d.exponent.toNat * Finite.one)
      (Nat.pow 10 (-d.exponent).toNat)

end Double

end Intake
