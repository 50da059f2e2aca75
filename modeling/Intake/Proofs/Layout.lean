import Mathlib.Tactic.FieldSimp
import Intake.Double.Layout
import Intake.Proofs.Decimal
import Intake.Proofs.Numeral

namespace Intake

open Intake.Numeral

namespace Decimal

variable {d : Decimal} {whole fraction : List Char} {power : Int}

theorem digitChars_ne_nil (d : Decimal) : d.digitChars ≠ [] :=
  Nat.toDigits_ne_nil

theorem allDigits_toDigits (n : Nat) : AllDigits (Nat.toDigits 10 n) :=
  fun _ hc => Nat.isDigit_of_mem_toDigits (by decide) (by decide) hc

theorem allDigits_digitChars (d : Decimal) : AllDigits d.digitChars :=
  allDigits_toDigits d.digits

theorem ofDigitChars_digitChars (d : Decimal) : Nat.ofDigitChars 10 d.digitChars 0 = d.digits :=
  Nat.ofDigitChars_toDigits (by decide) (by decide)

theorem value_eq_point (d : Decimal) :
    d.value =
      (Nat.ofDigitChars 10 d.digitChars 0 : ℚ) / 10 ^ d.digitChars.length * 10 ^ d.point := by
  have hten : (10 : ℚ) ≠ 0 := by norm_num
  rw [point, ofDigitChars_digitChars, zpow_add₀ hten, zpow_natCast, value]
  field_simp

theorem ofParts_eq (hdigits : Nat.ofDigitChars 10 (whole ++ fraction) 0 = d.digits)
    (hexponent : power - fraction.length = d.exponent) : ofParts whole fraction power = d := by
  unfold ofParts
  rw [hdigits, hexponent]

end Decimal

namespace Numeral

variable {cs digits : List Char} {c : Char}

theorem AllDigits.append (h : AllDigits digits) (h' : AllDigits cs) : AllDigits (digits ++ cs) :=
  List.forall_mem_append.mpr ⟨h, h'⟩

theorem AllDigits.take (h : AllDigits digits) (n : Nat) : AllDigits (digits.take n) :=
  fun c hc => h c (List.mem_of_mem_take hc)

theorem AllDigits.drop (h : AllDigits digits) (n : Nat) : AllDigits (digits.drop n) :=
  fun c hc => h c (List.mem_of_mem_drop hc)

theorem allDigits_zeros (n : Nat) : AllDigits (List.replicate n '0') := by
  intro c hc
  rw [List.eq_of_mem_replicate hc]
  decide

theorem ofDigitChars_zeros_append (n : Nat) (cs : List Char) :
    Nat.ofDigitChars 10 (List.replicate n '0' ++ cs) 0 = Nat.ofDigitChars 10 cs 0 := by
  rw [Nat.ofDigitChars_append, Nat.ofDigitChars_replicate_zero, Nat.mul_zero]

theorem isMantissa_lead (h : AllDigits (c :: digits)) :
    IsMantissa (c :: (if digits.isEmpty then [] else '.' :: digits)) [c] digits := by
  have hlead : AllDigits [c] := h.take 1
  split
  . next hempty =>
    rw [List.isEmpty_iff.mp hempty]
    exact .whole hlead (by simp)
  . exact .point hlead (by simp) (h.drop 1)

theorem isExponent_natAbs (i : Int) :
    IsExponent ('e' :: (if i < 0 then '-' else '+') :: Nat.toDigits 10 i.natAbs) i := by
  have hdigits := Decimal.allDigits_toDigits i.natAbs
  have hvalue : Nat.ofDigitChars 10 (Nat.toDigits 10 i.natAbs) 0 = i.natAbs :=
    Nat.ofDigitChars_toDigits (by decide) (by decide)
  split
  . next hneg =>
    have hexponent := IsExponent.some (Or.inl rfl) .minus hdigits Nat.toDigits_ne_nil
    rw [if_pos rfl, hvalue, Int.ofNat_natAbs_of_nonpos (by omega), Int.neg_neg] at hexponent
    exact hexponent
  . next hnonneg =>
    have hexponent := IsExponent.some (Or.inl rfl) .plus hdigits Nat.toDigits_ne_nil
    rw [if_neg (by decide), hvalue, Int.natAbs_of_nonneg (by omega)] at hexponent
    exact hexponent

end Numeral

namespace Layout

variable {d : Decimal}

theorem exists_isMantissa_of_length_le (h : d.digitChars.length ≤ d.point) :
    ∃ whole, IsMantissa
        (d.digitChars ++ List.replicate (d.point - d.digitChars.length).toNat '0') whole [] ∧
      (Decimal.ofParts whole [] 0).value = d.value := by
  unfold Decimal.point at h
  have hzeros : (d.point - d.digitChars.length).toNat = d.exponent.toNat := by
    unfold Decimal.point
    omega
  have hexponent : (0 : Int) - ([] : List Char).length + d.exponent.toNat = d.exponent := by
    rw [List.length_nil]
    omega
  rw [hzeros]
  refine ⟨_, .whole (d.allDigits_digitChars.append (allDigits_zeros _)) ?_, ?_⟩
  . simp [d.digitChars_ne_nil]
  . unfold Decimal.ofParts
    rw [List.append_nil, Nat.ofDigitChars_append, Nat.ofDigitChars_replicate_zero,
      d.ofDigitChars_digitChars, Decimal.value_ten_pow_mul, hexponent]

theorem isMantissa_of_point_pos (h : 0 < d.point) (hlt : d.point < d.digitChars.length) :
    IsMantissa (d.digitChars.take d.point.toNat ++ '.' :: d.digitChars.drop d.point.toNat)
        (d.digitChars.take d.point.toNat) (d.digitChars.drop d.point.toNat) ∧
      Decimal.ofParts (d.digitChars.take d.point.toNat) (d.digitChars.drop d.point.toNat) 0 = d := by
  have hdigits := d.allDigits_digitChars
  refine ⟨.point (hdigits.take _) ?_ (hdigits.drop _), Decimal.ofParts_eq ?_ ?_⟩
  . rw [Ne, List.take_eq_nil_iff, not_or]
    exact ⟨by omega, d.digitChars_ne_nil⟩
  . rw [List.take_append_drop, d.ofDigitChars_digitChars]
  . rw [List.length_drop]
    unfold Decimal.point at *
    omega

theorem isMantissa_of_point_nonpos (h : d.point ≤ 0) :
    IsMantissa ('0' :: '.' :: (List.replicate (-d.point).toNat '0' ++ d.digitChars)) ['0']
        (List.replicate (-d.point).toNat '0' ++ d.digitChars) ∧
      Decimal.ofParts ['0'] (List.replicate (-d.point).toNat '0' ++ d.digitChars) 0 = d := by
  have hdigits := (allDigits_zeros (-d.point).toNat).append d.allDigits_digitChars
  refine ⟨.point (allDigits_zeros 1) (by simp) hdigits, Decimal.ofParts_eq ?_ ?_⟩
  . rw [← d.ofDigitChars_digitChars, ← List.append_assoc]
    exact ofDigitChars_zeros_append (_ + 1) _
  . rw [List.length_append, List.length_replicate]
    unfold Decimal.point at *
    omega

theorem scientific_eq (d : Decimal) :
    ∃ mantissa whole fraction exponent power,
      scientific d.digitChars (d.point - 1) = mantissa ++ 'e' :: exponent ∧
        IsMantissa mantissa whole fraction ∧ IsExponent ('e' :: exponent) power ∧
          Decimal.ofParts whole fraction power = d := by
  have hdigits := d.allDigits_digitChars
  have hvalue := d.ofDigitChars_digitChars
  have hpoint : d.point = d.exponent + d.digitChars.length := rfl
  unfold scientific
  cases hcases : d.digitChars with
  | nil => exact absurd hcases d.digitChars_ne_nil
  | cons c rest =>
    rw [hcases] at hpoint hdigits hvalue
    refine ⟨_, _, _, _, _, rfl, isMantissa_lead hdigits, isExponent_natAbs (d.point - 1),
      Decimal.ofParts_eq hvalue ?_⟩
    rw [List.length_cons] at hpoint
    rw [List.drop_one, List.tail_cons]
    omega

end Layout

end Intake
