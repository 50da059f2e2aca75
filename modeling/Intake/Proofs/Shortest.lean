import Intake.Double.Shortest
import Intake.Proofs.Decimal

namespace Intake

theorem Decimal.value_go (fuel digits : Nat) (exponent : Int) :
    (trim.go fuel digits exponent).value = value ⟨digits, exponent⟩ := by
  induction fuel generalizing digits exponent with
  | zero => rfl
  | succ fuel ih =>
    unfold trim.go
    split
    . next hzero =>
      have hten : 10 ^ 1 * (digits / 10) = digits := by omega
      have hvalue := value_ten_pow_mul 1 (digits / 10) exponent
      rw [hten] at hvalue
      exact (ih _ _).trans hvalue.symm
    . rfl

theorem Decimal.value_trim (d : Decimal) : d.trim.value = d.value :=
  value_go d.digits.log2 d.digits d.exponent

namespace Finite

theorem unitDigits_pos : 0 < unitDigits := by
  unfold unitDigits
  generalize 1074 = places
  exact Nat.pow_pos (by decide)

variable {x : Finite} {d d' : Decimal} {tie : Tie}

theorem readsBack_iff : x.ReadsBack d ↔ d.units = x.units := by
  unfold ReadsBack
  rw [Double.ofDecimal_eq_ofRatio]
  unfold Double.ofRatio
  constructor
  . intro h
    split at h
    . rw [Double.finite.injEq] at h
      exact congrArg units h
    . contradiction
  . intro h
    unfold Decimal.units at h
    rw [dif_pos (by rw [h]; exact x.bounded)]
    simp only [h]

theorem ReadsBack.of_value_eq (h : x.ReadsBack d) (hvalue : d'.value = d.value) :
    x.ReadsBack d' :=
  readsBack_iff.mpr ((Decimal.units_eq_of_value_eq hvalue).trans (readsBack_iff.mp h))

theorem units_of_places (digits places : Nat) :
    Decimal.units ⟨digits, -(places : Int)⟩ =
      Double.roundUnits (digits * one) (Nat.pow 10 places) := by
  have hwhole : (-(places : Int)).toNat = 0 := by omega
  have hplaces : (- -(places : Int)).toNat = places := by omega
  have hone : Nat.pow 10 0 = 1 := rfl
  unfold Decimal.units
  rw [hwhole, hplaces, hone, Nat.mul_one]

theorem roundUnits_shiftLeft (digits places : Nat) :
    Double.roundUnits (digits * 1 <<< places) (Nat.pow 10 places) =
      Double.roundUnits digits (Nat.pow 5 places) := by
  have hten : Nat.pow 10 places = Nat.pow 5 places * Nat.pow 2 places := Nat.mul_pow 5 2 places
  apply Double.roundUnits_congr (ten_pow_pos places) (Nat.pow_pos (by decide))
  rw [Nat.one_shiftLeft, hten, Nat.mul_right_comm, Nat.mul_assoc]
  rfl

theorem units_of_expansion_exponent (digits : Nat) :
    Decimal.units ⟨digits, -1074⟩ = Double.roundUnits digits unitDigits := by
  refine (units_of_places digits 1074).trans ?_
  unfold one unitDigits
  -- The argument holds for every power, and this one is too large to be computed.
  generalize 1074 = places
  exact roundUnits_shiftLeft digits places

theorem roundUnits_expansion (x : Finite) :
    Double.roundUnits x.expansion.digits unitDigits = x.units :=
  Double.roundUnits_mul unitDigits_pos x.representable

theorem readsBack_expansion (x : Finite) : x.ReadsBack x.expansion :=
  readsBack_iff.mpr ((units_of_expansion_exponent _).trans x.roundUnits_expansion)

theorem readsBack_of_nearest? {dropped : Nat} (h : x.nearest? tie dropped = some d) :
    x.ReadsBack d := by
  have hreads := List.find?_some h
  exact of_decide_eq_true hreads

theorem readsBack_shortest (tie : Tie) (x : Finite) : x.ReadsBack (x.shortest tie) := by
  unfold shortest
  dsimp only
  refine ReadsBack.of_value_eq ?_ (Decimal.value_trim _)
  generalize hfound : List.findSome? _ _ = found
  cases found with
  | none => exact x.readsBack_expansion
  | some d =>
    obtain ⟨count, _, hnearest⟩ := List.exists_of_findSome?_eq_some hfound
    exact readsBack_of_nearest? hnearest

end Finite

end Intake
