import Mathlib.Tactic.SplitIfs
import Intake.Double.Arithmetic
import Intake.Proofs.Exactness
import Intake.Proofs.Monotone

namespace Intake

namespace Double

theorem roundUnits_le_of_le {n b : Nat}
    (hb : ∃ significand exponent, significand < 1 <<< 53 ∧ b = significand <<< exponent)
    (h : n ≤ b) : roundUnits n 1 ≤ b := by
  calc
    roundUnits n 1 ≤ roundUnits b 1 := roundUnits_le_of_num_le Nat.one_pos h
    _ = b := roundUnits_of_representable hb

theorem le_roundUnits_of_le {n b : Nat}
    (hb : ∃ significand exponent, significand < 1 <<< 53 ∧ b = significand <<< exponent)
    (h : b ≤ n) : b ≤ roundUnits n 1 := by
  calc
    b = roundUnits b 1 := (roundUnits_of_representable hb).symm
    _ ≤ roundUnits n 1 := roundUnits_le_of_num_le Nat.one_pos h

variable {x y : Finite} {i : Int}

theorem ofInt_eq_ofScaled (i : Int) : ofInt i = ofScaled (i * Finite.one) := by
  have hneg : i < 0 ↔ i * Finite.one < 0 := by
    have hone := Finite.one_pos
    rw [Int.mul_neg_iff]
    omega
  unfold ofInt ofScaled
  rw [Int.natAbs_mul, Int.natAbs_natCast, decide_eq_decide.mpr hneg]

theorem scaled_eq_of_ofScaled (h : ofScaled i = finite y) :
    y.scaled = if i < 0 then -(roundUnits i.natAbs 1 : Int) else roundUnits i.natAbs 1 := by
  unfold ofScaled ofRatio at h
  split at h
  . rw [finite.injEq] at h
    rw [← h]
    simp only [Finite.scaled, decide_eq_true_eq]
  . simp at h

theorem scaled_bounds_of_ofScaled (h : ofScaled i = finite y) (x : Finite) :
    (i ≤ x.scaled → y.scaled ≤ x.scaled) ∧ (x.scaled ≤ i → x.scaled ≤ y.scaled) := by
  have hbelow := roundUnits_le_of_le (n := i.natAbs) x.representable
  have habove := le_roundUnits_of_le (n := i.natAbs) x.representable
  rw [scaled_eq_of_ofScaled h]
  unfold Finite.scaled
  constructor
  all_goals
    intro hle
    split_ifs at hle ⊢ <;> omega

theorem scaled_bounds_of_ofInt (h : ofInt i = finite y) (x : Finite) :
    (i * Finite.one ≤ x.scaled → y.scaled ≤ x.scaled) ∧
      (x.scaled ≤ i * Finite.one → x.scaled ≤ y.scaled) :=
  scaled_bounds_of_ofScaled (ofInt_eq_ofScaled i ▸ h) x

theorem isFinite_ofScaled (h : i.natAbs ≤ x.units) : (ofScaled i).isFinite = true := by
  unfold ofScaled ofRatio
  rw [dif_pos ((roundUnits_le_of_le x.representable h).trans_lt x.bounded)]
  rfl

theorem scaled_of_ofScaled (h : ofScaled i = finite y)
    (hrepresentable : ∃ significand exponent, significand < 1 <<< 53 ∧
      i.natAbs = significand <<< exponent) : y.scaled = i := by
  rw [scaled_eq_of_ofScaled h, roundUnits_of_representable hrepresentable]
  omega

theorem representable_of_natAbs_le (hsmall : i.natAbs ≤ 9007199254740992) :
    ∃ significand exponent, significand < 1 <<< 53 ∧
      i.natAbs * Finite.one = significand <<< exponent := by
  unfold Finite.one
  by_cases hlt : i.natAbs < 9007199254740992
  . refine ⟨i.natAbs, 1074, hlt, ?_⟩
    rw [Nat.one_shiftLeft, Nat.shiftLeft_eq]
  . have hsize : i.natAbs = 1 <<< 53 := by omega
    refine ⟨1, 53 + 1074, by decide, ?_⟩
    rw [hsize, Nat.one_shiftLeft 1074, Nat.shiftLeft_add, Nat.shiftLeft_eq (1 <<< 53)]

theorem scaled_of_ofInt (h : ofInt i = finite y) (hsmall : i.natAbs ≤ 9007199254740992) :
    y.scaled = i * Finite.one := by
  rw [ofInt_eq_ofScaled] at h
  apply scaled_of_ofScaled h
  rw [Int.natAbs_mul, Int.natAbs_natCast]
  exact representable_of_natAbs_le hsmall

end Double

end Intake
