import Intake.Json.Basic
import Intake.Proofs.Exactness

namespace Intake

open Intake.Finite

theorem Finite.limit_eq : limit = 1 <<< 1024 * one := by
  have hpow (a b : Nat) : 1 <<< (a + b) = 1 <<< a * 1 <<< b := by
    simp only [Nat.one_shiftLeft, Nat.pow_add]
  exact hpow 1024 1074

theorem Finite.mul_one_lt_limit {n : Nat} (h : n < 1 <<< 1024) : n * one < limit := by
  rw [limit_eq]
  exact Nat.mul_lt_mul_of_pos_right h one_pos

namespace Double

theorem roundUnits_le (n : Nat) : roundUnits n 1 ≤ 2 * n + 1 := by
  have hround := roundDiv_le n (2 ^ (n.log2 - 52))
  have hstep : 2 ^ (n.log2 - 52) ≤ n + 1 := by
    by_cases hzero : n = 0
    . simp [hzero]
    . calc
        2 ^ (n.log2 - 52) ≤ 2 ^ n.log2 := Nat.pow_le_pow_right (by decide) (Nat.sub_le _ _)
        _ ≤ n := Nat.log2_self_le hzero
        _ ≤ n + 1 := Nat.le_succ n
  unfold roundUnits
  rw [Nat.div_one, Nat.one_shiftLeft, Nat.shiftLeft_eq]
  calc
    roundDiv n (2 ^ (n.log2 - 52)) * 2 ^ (n.log2 - 52)
      ≤ (n / 2 ^ (n.log2 - 52) + 1) * 2 ^ (n.log2 - 52) := Nat.mul_le_mul_right _ hround
    _ = n / 2 ^ (n.log2 - 52) * 2 ^ (n.log2 - 52) + 2 ^ (n.log2 - 52) := Nat.succ_mul _ _
    _ ≤ n + (n + 1) := Nat.add_le_add (Nat.div_mul_le_self _ _) hstep
    _ = 2 * n + 1 := by omega

theorem isFinite_ofInt {i : Int} (h : 2 * i.natAbs + 1 < 1 <<< 1024) :
    (ofInt i).isFinite = true := by
  have hlt : roundUnits (i.natAbs * one) 1 < limit := by
    calc
      roundUnits (i.natAbs * one) 1 ≤ 2 * (i.natAbs * one) + 1 := roundUnits_le _
      _ ≤ 2 * (i.natAbs * one) + one := Nat.add_le_add_left one_pos _
      _ = (2 * i.natAbs + 1) * one := by ring
      _ < limit := mul_one_lt_limit h
  unfold ofInt ofRatio
  rw [dif_pos hlt]
  rfl

end Double

theorem Number.isFinite_toDouble (number : Number) : number.toDouble.isFinite = true := by
  cases number with
  | int value least below =>
    apply Double.isFinite_ofInt
    calc
      2 * value.natAbs + 1 < 1 <<< 66 := by omega
      _ ≤ 1 <<< 1024 := by decide
  | float value => rfl

end Intake
