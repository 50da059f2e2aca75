import Intake.Proofs.RoundTrip

/-!
This module contains that the text of an integer up to 2 to the power of 53 is the same for the
double as for the integer: the search for the shortest decimal finds one of exactly its value, and
without an exponent the zeros that have been dropped from the digits are written again.
-/

namespace Intake

open Intake.Finite

namespace Decimal

theorem digits_go_mod_ten {fuel digits : Nat} (exponent : Int) (hdigits : digits ≠ 0)
    (hfuel : digits < 2 ^ (fuel + 1)) : (trim.go fuel digits exponent).digits % 10 ≠ 0 := by
  -- The induction is on the fuel, which suffices since every zero that is dropped takes more than
  -- one bit.
  induction fuel generalizing digits exponent with
  | zero =>
    unfold trim.go
    dsimp only
    omega
  | succ fuel ih =>
    unfold trim.go
    split
    . next hzero =>
      rw [Nat.pow_succ] at hfuel
      exact ih (exponent + 1) (by omega) (by omega)
    . next hne => exact hne

theorem digits_trim_mod_ten {d : Decimal} (h : d.trim.digits ≠ 0) : d.trim.digits % 10 ≠ 0 := by
  have hle : d.trim.digits ≤ d.digits := digits_go_le _ _ _
  exact digits_go_mod_ten d.exponent (by omega) Nat.lt_log2_self

theorem value_natCast (n : Nat) : value ⟨n, 0⟩ = n := by
  rw [value, zpow_zero, mul_one]

theorem exists_exponent_of_value_eq {d : Decimal} {n : Nat} (hvalue : d.value = n)
    (htrimmed : d.digits % 10 ≠ 0) : ∃ k : Nat, d.exponent = k ∧ n = 10 ^ k * d.digits := by
  obtain ⟨k, hk | hk⟩ := Int.eq_nat_or_neg d.exponent
  . refine ⟨k, hk, ?_⟩
    rw [value, hk, zpow_natCast, mul_comm] at hvalue
    exact_mod_cast hvalue.symm
  . rw [value, hk, zpow_neg, zpow_natCast, ← div_eq_mul_inv, div_eq_iff (by positivity)] at hvalue
    have hdigits : d.digits = n * 10 ^ k := by
      exact_mod_cast hvalue
    cases k with
    | zero => exact ⟨0, by simpa using hk, by simpa using hdigits.symm⟩
    | succ k =>
      rw [hdigits, Nat.pow_succ, ← Nat.mul_assoc, Nat.mul_mod_left] at htrimmed
      contradiction

theorem toDigits_ten_pow_mul (k : Nat) {n : Nat} (hn : n ≠ 0) :
    Nat.toDigits 10 (10 ^ k * n) = Nat.toDigits 10 n ++ List.replicate k '0' := by
  induction k with
  | zero => simp
  | succ k ih =>
    have hpos : 0 < 10 ^ k * n := Nat.mul_pos (Nat.pow_pos (by decide)) (Nat.pos_of_ne_zero hn)
    have hlast := Nat.toDigits_append_toDigits (by decide : 1 < 10) hpos (by decide : 0 < 10)
    rw [Nat.pow_succ', Nat.mul_assoc, ← Nat.add_zero (10 * _), ← hlast, ih, List.append_assoc,
      List.replicate_succ', Nat.toDigits_zero]

end Decimal

namespace Finite

variable {x : Finite} {d : Decimal} {tie : Tie} {dropped n : Nat}

theorem shiftLeft_mul_pow_five (n places : Nat) :
    n * 1 <<< places * Nat.pow 5 places = 10 ^ places * n := by
  rw [Nat.one_shiftLeft, Nat.mul_assoc, Nat.pow_eq, ← Nat.mul_pow, Nat.mul_comm]

theorem ten_pow_dvd_expansion (hunits : x.units = n * one) (hle : dropped ≤ 1074) :
    10 ^ dropped ∣ x.expansion.digits := by
  unfold expansion unitDigits
  rw [hunits]
  unfold one
  -- The powers of 1074 are too large to be computed.
  generalize 1074 = places at hle
  rw [shiftLeft_mul_pow_five]
  exact Nat.dvd_mul_right_of_dvd (Nat.pow_dvd_pow 10 hle) n

theorem value_mul_unitDigits (n : Nat) :
    Decimal.value ⟨n * one * unitDigits, -(1074 : Nat)⟩ = n := by
  unfold one unitDigits
  generalize 1074 = places
  rw [shiftLeft_mul_pow_five, Decimal.value_ten_pow_mul, Int.add_left_neg]
  exact Decimal.value_natCast n

theorem value_expansion_of_units_eq (hunits : x.units = n * one) : x.expansion.value = n := by
  unfold expansion
  rw [hunits]
  exact value_mul_unitDigits n

theorem value_expansion_div (hdvd : 10 ^ dropped ∣ x.expansion.digits) :
    Decimal.value ⟨x.expansion.digits / 10 ^ dropped, dropped - 1074⟩ = x.expansion.value := by
  have hexponent : (dropped : Int) - 1074 = -1074 + dropped := by omega
  rw [hexponent, ← Decimal.value_ten_pow_mul, Nat.mul_div_cancel' hdvd]
  rfl

theorem nearest?_of_dvd (tie : Tie) (hdvd : 10 ^ dropped ∣ x.expansion.digits) :
    x.nearest? tie dropped = some ⟨x.expansion.digits / 10 ^ dropped, dropped - 1074⟩ := by
  have hpos : 2 * 0 < 10 ^ dropped := Nat.pow_pos (by decide)
  have hreads := x.readsBack_expansion.of_value_eq (value_expansion_div hdvd)
  unfold nearest?
  simp only [Nat.pow_eq, Nat.mod_eq_zero_of_dvd hdvd]
  rw [if_pos (Or.inl hpos)]
  apply List.find?_cons_of_pos
  exact decide_eq_true hreads

theorem exponent_of_nearest? (h : x.nearest? tie dropped = some d) :
    d.exponent = dropped - 1074 := by
  have hmem := List.mem_of_find?_eq_some h
  split at hmem
  all_goals
    simp only [List.mem_cons, List.not_mem_nil, or_false] at hmem
    obtain rfl | rfl := hmem <;> rfl

theorem units_of_value_eq (hvalue : d.value = n) : d.units = Double.roundUnits (n * one) 1 := by
  rw [Decimal.units_eq_of_value_eq (hvalue.trans (Decimal.value_natCast n).symm)]
  unfold Decimal.units
  simp

theorem two_mul_representable (h : n < 1 <<< 53) :
    ∃ significand exponent, significand < 1 <<< 53 ∧
      2 * n * one = significand <<< exponent := by
  refine ⟨n, 1 + 1074, h, ?_⟩
  unfold one
  rw [Nat.shiftLeft_add, Nat.one_shiftLeft, Nat.shiftLeft_eq, Nat.shiftLeft_eq, Nat.mul_comm 2 n]

theorem eq_of_units_eq {m : Nat} (hvalue : d.value = m) (heven : 2 ∣ m)
    (hunits : d.units = n * one) (hn : n ≤ 9007199254740992) : m = n := by
  rw [units_of_value_eq hvalue] at hunits
  by_cases hm : m ≤ 9007199254740992
  . have hexact := Double.representable_of_natAbs_le (i := (m : Nat)) hm
    rw [Int.natAbs_natCast] at hexact
    rw [Double.roundUnits_of_representable hexact] at hunits
    exact Nat.eq_of_mul_eq_mul_right one_pos hunits
  . -- The odd number that follows 2 to the power of 53 is rounded to it, too, but no even one is.
    have hnext := two_mul_representable (by decide : 4503599627370497 < 1 <<< 53)
    have hle : 2 * 4503599627370497 * one ≤ m * one := Nat.mul_le_mul_right one (by omega)
    have hround := Double.le_roundUnits_of_le hnext hle
    rw [hunits] at hround
    have hlt := Nat.le_of_mul_le_mul_right hround one_pos
    omega

theorem value_of_nearest? (hunits : x.units = n * one) (hn : n ≤ 9007199254740992)
    (h : x.nearest? tie dropped = some d) : d.value = n := by
  by_cases hdvd : 10 ^ dropped ∣ x.expansion.digits
  . obtain rfl := Option.some.inj ((nearest?_of_dvd tie hdvd).symm.trans h)
    rw [value_expansion_div hdvd, value_expansion_of_units_eq hunits]
  . -- If other digits than zeros are dropped, then a multiple of ten is found, and this is even.
    have hlarge : 1074 < dropped := by
      by_contra hle
      exact hdvd (ten_pow_dvd_expansion hunits (not_lt.mp hle))
    have hexponent : d.exponent = ((dropped - 1074 : Nat) : Int) := by
      rw [exponent_of_nearest? h]
      omega
    have hvalue : d.value = (10 ^ (dropped - 1074) * d.digits : Nat) := by
      rw [Decimal.value, hexponent, zpow_natCast, mul_comm]
      push_cast
      rfl
    have heven : 2 ∣ 10 ^ (dropped - 1074) * d.digits :=
      Nat.dvd_mul_right_of_dvd (dvd_pow (by decide) (by omega)) _
    have hreads := (readsBack_iff.mp (readsBack_of_nearest? h)).trans hunits
    rw [hvalue, eq_of_units_eq hvalue heven hreads hn]

theorem value_shortest (tie : Tie) (hunits : x.units = n * one) (hn : n ≤ 9007199254740992) :
    (x.shortest tie).value = n := by
  unfold shortest
  dsimp only
  rw [Decimal.value_trim]
  generalize hfound : List.findSome? _ _ = found
  cases found with
  | none => exact value_expansion_of_units_eq hunits
  | some d =>
    obtain ⟨count, _, hnearest⟩ := List.exists_of_findSome?_eq_some hfound
    exact value_of_nearest? hunits hn hnearest

theorem digits_ne_zero_of_readsBack (h : x.ReadsBack d) (hunits : x.units ≠ 0) : d.digits ≠ 0 := by
  intro hzero
  rw [← readsBack_iff.mp h] at hunits
  apply hunits
  unfold Decimal.units
  rw [hzero, Nat.zero_mul, Nat.zero_mul]
  exact Double.roundUnits_eq_zero (ten_pow_pos _)

end Finite

namespace Layout

variable {layout : Layout} {d : Decimal} {n : Nat}

theorem ofDecimal_of_value_eq (hvalue : d.value = n) (htrimmed : d.digits % 10 ≠ 0)
    (hlength : (Nat.toDigits 10 n).length ≤ layout.mostPoint) :
    layout.ofDecimal d = Nat.toDigits 10 n ++ layout.wholeEnd.toList := by
  obtain ⟨k, hexponent, rfl⟩ := Decimal.exists_exponent_of_value_eq hvalue htrimmed
  have hdigits : d.digits ≠ 0 := by omega
  have htext : Nat.toDigits 10 (10 ^ k * d.digits) = d.digitChars ++ List.replicate k '0' :=
    Decimal.toDigits_ten_pow_mul k hdigits
  have hpoint : d.point = k + d.digitChars.length := by
    rw [Decimal.point, hexponent]
  have hzeros : (d.point - d.digitChars.length).toNat = k := by omega
  rw [htext, List.length_append, List.length_replicate] at hlength
  unfold ofDecimal
  dsimp only
  rw [if_pos (by omega), hzeros, htext]

end Layout

namespace Finite

variable {x : Finite} {i : Int}

theorem digits_shortest_mod_ten (tie : Tie) (hunits : x.units ≠ 0) :
    (x.shortest tie).digits % 10 ≠ 0 :=
  Decimal.digits_trim_mod_ten (digits_ne_zero_of_readsBack (x.readsBack_shortest tie) hunits)

end Finite

theorem Layout.ofDecimal_shortest {x : Finite} {n : Nat} (hunits : x.units = n * one)
    (hn : n ≤ 9007199254740992) (hne : x.units ≠ 0) :
    text.ofDecimal (x.shortest text.tie) = Nat.toDigits 10 n := by
  have hlength : (Nat.toDigits 10 n).length ≤ 16 :=
    (Nat.length_toDigits_le_iff (by decide) (by decide)).mpr (by omega)
  rw [ofDecimal_of_value_eq (value_shortest _ hunits hn) (digits_shortest_mod_ten _ hne)]
  . exact List.append_nil _
  . calc
      ((Nat.toDigits 10 n).length : Int) ≤ 16 := by exact_mod_cast hlength
      _ ≤ text.mostPoint := by decide

theorem Numeral.toList_toString (i : Int) :
    (toString i).toList = (if i < 0 then ['-'] else []) ++ Nat.toDigits 10 i.natAbs := by
  rw [Int.toString_eq_repr, Int.repr_eq_if]
  split
  . next hnonneg =>
    rw [if_neg (by omega), Nat.toList_repr]
    congr 1
    omega
  . next hneg =>
    rw [if_pos (by omega), String.toList_append, Nat.toList_repr]
    congr 2
    omega

namespace Double

variable {x : Finite} {i : Int}

theorem text_of_value_eq (hvalue : x.value = i) (h : i.natAbs ≤ 9007199254740992) :
    (finite x).text = toString i := by
  have hscaled := value_eq_intCast_iff.mp hvalue
  have hunits := units_eq_of_scaled_eq hscaled
  by_cases hzero : x.units = 0
  . have hi : i = 0 := by
      rw [hzero, eq_comm, Nat.mul_eq_zero] at hunits
      have hone := one_pos
      omega
    rw [text_of_units_eq_zero hzero, hi]
    rfl
  . rw [← String.toList_inj, text, Layout.ofFinite, if_neg hzero, String.toList_ofList,
      Layout.ofDecimal_shortest hunits h hzero, Numeral.toList_toString,
      negative_eq_of_scaled_eq hscaled hzero]
    split
    . next hneg => rw [if_pos (of_decide_eq_true hneg)]; rfl
    . next hneg => rw [if_neg (fun hlt => hneg (decide_eq_true hlt))]; rfl

end Double

end Intake
