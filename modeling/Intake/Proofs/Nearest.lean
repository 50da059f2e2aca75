import Mathlib.Data.Nat.Dist
import Intake.Proofs.Decimal
import Intake.Proofs.Interval

/-!
This module contains that a decimal stands for the nearest double, and for the one of even
significand if two doubles are equally near.
-/

namespace Intake

section RoundDiv

variable {num den k k' : Nat}

theorem roundDiv_eq_or (num den : Nat) :
    (roundDiv num den = num / den ∧ 2 * (num % den) ≤ den) ∨
      (roundDiv num den = num / den + 1 ∧ den ≤ 2 * (num % den)) := by
  unfold roundDiv
  split
  . omega
  . split
    . omega
    . cases Nat.mod_two_eq_zero_or_one (num / den) <;> omega

theorem two_mul_dist_roundDiv_le (hden : 0 < den) (num : Nat) :
    2 * Nat.dist num (roundDiv num den * den) ≤ den := by
  have hnum := Nat.div_add_mod' num den
  have hlt := Nat.mod_lt num hden
  unfold Nat.dist
  obtain ⟨heq, hmod⟩ | ⟨heq, hmod⟩ := roundDiv_eq_or num den
  . rw [heq]
    omega
  . rw [heq, Nat.add_one_mul (num / den)]
    omega

theorem le_dist_add_dist (h : k ≠ k') (num den : Nat) :
    den ≤ Nat.dist num (k * den) + Nat.dist num (k' * den) := by
  calc
    den ≤ Nat.dist k k' * den := Nat.le_mul_of_pos_left den (Nat.dist_pos_of_ne h)
    _ = Nat.dist (k * den) (k' * den) := (Nat.dist_mul_right _ _ _).symm
    _ ≤ Nat.dist (k * den) num + Nat.dist num (k' * den) := Nat.dist.triangle_inequality _ _ _
    _ = Nat.dist num (k * den) + Nat.dist num (k' * den) := by rw [Nat.dist_comm (k * den)]

theorem roundDiv_nearest (hden : 0 < den) (k : Nat) :
    Nat.dist num (roundDiv num den * den) ≤ Nat.dist num (k * den) := by
  by_cases heq : k = roundDiv num den
  . rw [heq]
  . have hnear := two_mul_dist_roundDiv_le hden num
    have hapart := le_dist_add_dist heq num den
    omega

theorem two_mul_mod_of_tie (hden : 0 < den) (hne : k ≠ roundDiv num den)
    (htie : Nat.dist num (roundDiv num den * den) = Nat.dist num (k * den)) :
    2 * (num % den) = den := by
  have hnum := Nat.div_add_mod' num den
  have hlt := Nat.mod_lt num hden
  have hnear := two_mul_dist_roundDiv_le hden num
  have hapart := le_dist_add_dist hne num den
  rw [← htie] at hapart
  -- The number that is taken is half of the divisor away.
  unfold Nat.dist at hnear hapart
  obtain ⟨heq, hmod⟩ | ⟨heq, hmod⟩ := roundDiv_eq_or num den
  . rw [heq] at hnear hapart
    omega
  . rw [heq, Nat.add_one_mul (num / den)] at hnear hapart
    omega

theorem even_roundDiv_of_tie (hden : 0 < den) (hne : k ≠ roundDiv num den)
    (htie : Nat.dist num (roundDiv num den * den) = Nat.dist num (k * den)) :
    2 ∣ roundDiv num den := by
  have hmod := two_mul_mod_of_tie hden hne htie
  unfold roundDiv
  rw [if_neg (by omega), if_neg (by omega)]
  omega

end RoundDiv

namespace Double

variable {num den n : Nat}

theorem even_significand_two_pow (k : Nat) : 2 ∣ 2 ^ (k + 1) / 2 ^ ((2 ^ (k + 1)).log2 - 52) := by
  rw [Nat.log2_two_pow, Nat.pow_div (Nat.sub_le _ _) (by decide)]
  apply dvd_pow_self
  omega

theorem even_significand (hden : 0 < den)
    (h : 2 ∣ roundDiv num (den * 2 ^ ((num / den).log2 - 52))) :
    2 ∣ roundUnits num den / 2 ^ ((roundUnits num den).log2 - 52) := by
  -- The significand is the rounded quotient, unless this is rounded up to the next power of two.
  have hupper := roundUnits_le_two_pow hden (Nat.lt_log2_self (n := num / den))
  obtain hlt | heq := hupper.lt_or_eq
  . have hlog : (roundUnits num den).log2 - 52 = (num / den).log2 - 52 := by
      by_cases hzero : num / den = 0
      . rw [hzero, Nat.log2_zero] at hlt ⊢
        have hone : roundUnits num den = 0 ∨ roundUnits num den = 1 := by omega
        obtain heq | heq := hone <;> rw [heq] <;> decide
      . have hlower := two_pow_le_roundUnits hden hzero
        have hne : roundUnits num den ≠ 0 := ((Nat.two_pow_pos _).trans_le hlower).ne'
        rw [(Nat.log2_eq_iff hne).mpr ⟨hlower, hlt⟩]
    rw [hlog, roundUnits_eq, Nat.mul_div_cancel _ (Nat.two_pow_pos _)]
    exact h
  . rw [heq]
    exact even_significand_two_pow _

theorem dist_roundUnits (num den : Nat) :
    Nat.dist num (roundUnits num den * den) =
      Nat.dist num (roundDiv num (den * 2 ^ ((num / den).log2 - 52)) *
        (den * 2 ^ ((num / den).log2 - 52))) := by
  rw [roundUnits_eq, Nat.mul_assoc, Nat.mul_comm (2 ^ _)]

theorem dist_roundUnits_lt (hden : 0 < den)
    (hn : ∃ significand exponent, significand < 1 <<< 53 ∧ n = significand <<< exponent)
    (hdvd : ¬ 2 ^ ((num / den).log2 - 52) ∣ n) :
    Nat.dist num (roundUnits num den * den) < Nat.dist num (n * den) := by
  -- The number has fewer bits than the quotient, and the least number with as many bits is a
  -- multiple of the step that is nearer.
  have hlt : n < 2 ^ (num / den).log2 := by
    by_contra hle
    exact hdvd (two_pow_dvd_of_representable hn (not_lt.mp hle))
  have hlog : 52 ≤ (num / den).log2 := by
    by_contra hsmall
    rw [Nat.sub_eq_zero_of_le (by omega)] at hdvd
    exact hdvd (one_dvd n)
  have hzero : num / den ≠ 0 := by
    intro hzero
    rw [hzero, Nat.log2_zero] at hlog
    omega
  have hnum : 2 ^ (num / den).log2 * den ≤ num :=
    (Nat.le_div_iff_mul_le hden).mp (Nat.log2_self_le hzero)
  have hleast : 2 ^ 52 * (den * 2 ^ ((num / den).log2 - 52)) = 2 ^ (num / den).log2 * den := by
    rw [Nat.mul_left_comm, ← Nat.pow_add, Nat.add_sub_cancel' hlog, Nat.mul_comm]
  calc
    Nat.dist num (roundUnits num den * den)
      ≤ Nat.dist num (2 ^ (num / den).log2 * den) := by
        rw [dist_roundUnits, ← hleast]
        exact roundDiv_nearest (Nat.mul_pos hden (Nat.two_pow_pos _)) _
    _ < Nat.dist num (n * den) := by
        have hmul := Nat.mul_lt_mul_of_pos_right hlt hden
        unfold Nat.dist
        omega

theorem roundUnits_nearest (hden : 0 < den)
    (hn : ∃ significand exponent, significand < 1 <<< 53 ∧ n = significand <<< exponent) :
    Nat.dist num (roundUnits num den * den) ≤ Nat.dist num (n * den) := by
  by_cases hdvd : 2 ^ ((num / den).log2 - 52) ∣ n
  . obtain ⟨k, rfl⟩ := hdvd
    rw [dist_roundUnits, Nat.mul_comm _ k, Nat.mul_assoc, Nat.mul_comm _ den]
    exact roundDiv_nearest (Nat.mul_pos hden (Nat.two_pow_pos _)) k
  . exact (dist_roundUnits_lt hden hn hdvd).le

theorem roundUnits_even_of_tie (hden : 0 < den)
    (hn : ∃ significand exponent, significand < 1 <<< 53 ∧ n = significand <<< exponent)
    (hne : n ≠ roundUnits num den)
    (htie : Nat.dist num (roundUnits num den * den) = Nat.dist num (n * den)) :
    2 ∣ roundUnits num den / 2 ^ ((roundUnits num den).log2 - 52) := by
  by_cases hdvd : 2 ^ ((num / den).log2 - 52) ∣ n
  . obtain ⟨k, rfl⟩ := hdvd
    rw [dist_roundUnits, Nat.mul_comm _ k, Nat.mul_assoc, Nat.mul_comm _ den] at htie
    apply even_significand hden
    apply even_roundDiv_of_tie (Nat.mul_pos hden (Nat.two_pow_pos _)) _ htie
    rintro rfl
    exact hne (by rw [roundUnits_eq, Nat.mul_comm])
  . exact absurd htie (dist_roundUnits_lt hden hn hdvd).ne

end Double

/--
Of the numbers of at most 53 significant bits, one that is nearest to a number. If another one is as
near, its significand is even.
-/
structure IsNearest (q : ℚ) (u : Nat) : Prop where
  representable : ∃ significand exponent, significand < 1 <<< 53 ∧ u = significand <<< exponent
  nearest : ∀ significand exponent, significand < 1 <<< 53 →
    |q - u| ≤ |q - (significand <<< exponent : Nat)|
  even : ∀ significand exponent, significand < 1 <<< 53 → significand <<< exponent ≠ u →
    |q - u| = |q - (significand <<< exponent : Nat)| → 2 ∣ u / 2 ^ (u.log2 - 52)

namespace IsNearest

variable {q : ℚ} {u v : Nat}

theorem step_dvd (hu : IsNearest q u) : 2 ^ (u.log2 - 52) ∣ u := by
  by_cases hzero : u = 0
  . rw [hzero]
    exact dvd_zero _
  . exact Double.two_pow_dvd_of_representable hu.representable (Nat.log2_self_le hzero)

theorem step_dvd_of_lt (hv : IsNearest q v) (h : u < v) : 2 ^ (u.log2 - 52) ∣ v := by
  by_cases hzero : u = 0
  . rw [hzero]
    exact one_dvd v
  . exact Double.two_pow_dvd_of_representable hv.representable
      ((Nat.log2_self_le hzero).trans h.le)

theorem next_representable (hu : IsNearest q u) :
    ∃ significand exponent, significand < 1 <<< 53 ∧
      u + 2 ^ (u.log2 - 52) = significand <<< exponent := by
  obtain ⟨m, hm⟩ := hu.step_dvd
  have hlt : u < 2 ^ (u.log2 - 52) * 2 ^ 53 := by
    rw [← Nat.pow_add]
    exact Nat.lt_log2_self.trans_le (Nat.pow_le_pow_right (by decide) (by omega))
  generalize u.log2 - 52 = step at *
  rw [hm] at hlt
  have hlt := Nat.lt_of_mul_lt_mul_left hlt
  rw [hm, ← Nat.mul_succ, Nat.mul_comm]
  by_cases hsmall : m + 1 < 1 <<< 53
  . exact ⟨m + 1, step, hsmall, (Nat.shiftLeft_eq _ _).symm⟩
  . have hpow : m + 1 = 2 ^ 53 := by omega
    refine ⟨1, 53 + step, by decide, ?_⟩
    rw [Nat.succ_eq_add_one, hpow, ← Nat.pow_add, Nat.one_shiftLeft]

theorem eq_next (hu : IsNearest q u) (hv : IsNearest q v) (h : u < v) :
    v = u + 2 ^ (u.log2 - 52) := by
  -- A number between them would be nearer than one of them.
  have hle := Double.add_le_of_dvd hu.step_dvd (hv.step_dvd_of_lt h) h
  have hlarger : u < u + 2 ^ (u.log2 - 52) := Nat.lt_add_of_pos_right (Nat.two_pow_pos _)
  obtain ⟨significand, exponent, hlt, hnext⟩ := hu.next_representable
  have hnearest := hu.nearest significand exponent hlt
  have hnearest' := hv.nearest significand exponent hlt
  rw [← hnext] at hnearest hnearest'
  generalize u + 2 ^ (u.log2 - 52) = next at *
  by_contra hne
  have hbelow : (u : ℚ) < next := by
    exact_mod_cast hlarger
  have habove : (next : ℚ) < v := by
    exact_mod_cast lt_of_le_of_ne hle (Ne.symm hne)
  have hlower : 2 * q ≤ u + next := by grind
  have hupper : next + v ≤ 2 * q := by grind
  linarith

theorem even_div_step (h : u < v) (hupper : v ≤ 2 ^ (u.log2 + 1))
    (heven : 2 ∣ v / 2 ^ (v.log2 - 52)) : 2 ∣ v / 2 ^ (u.log2 - 52) := by
  obtain hlt | heq := hupper.lt_or_eq
  . have hlower : 2 ^ u.log2 ≤ v := by
      by_cases hzero : u = 0
      . rw [hzero, Nat.log2_zero]
        omega
      . exact (Nat.log2_self_le hzero).trans h.le
    rw [← (Nat.log2_eq_iff (by omega)).mpr ⟨hlower, hlt⟩]
    exact heven
  . rw [heq, Nat.pow_div (by omega) (by decide)]
    apply dvd_pow_self
    omega

theorem not_lt_of_isNearest (hu : IsNearest q u) (hv : IsNearest q v) : ¬ u < v := by
  -- Of two neighbours, one has an odd significand.
  intro h
  have hnext := eq_next hu hv h
  have hpos := Nat.two_pow_pos (u.log2 - 52)
  obtain ⟨significand, exponent, hsignificand, hrep⟩ := hu.representable
  obtain ⟨significand', exponent', hsignificand', hrep'⟩ := hv.representable
  have htie : |q - u| = |q - v| := by
    apply le_antisymm
    . exact hrep' ▸ hu.nearest significand' exponent' hsignificand'
    . exact hrep ▸ hv.nearest significand exponent hsignificand
  have hodd : v / 2 ^ (u.log2 - 52) = u / 2 ^ (u.log2 - 52) + 1 := by
    rw [← Nat.add_div_right _ hpos, ← hnext]
  have heven : 2 ∣ u / 2 ^ (u.log2 - 52) := by
    apply hu.even significand' exponent' hsignificand' <;> rw [← hrep']
    . exact h.ne'
    . exact htie
  have heven' : 2 ∣ v / 2 ^ (v.log2 - 52) := by
    apply hv.even significand exponent hsignificand <;> rw [← hrep]
    . exact h.ne
    . exact htie.symm
  have hupper : v ≤ 2 ^ (u.log2 + 1) := by
    rw [hnext]
    exact Double.add_le_of_dvd hu.step_dvd (Nat.pow_dvd_pow 2 (by omega)) Nat.lt_log2_self
  have hsame := even_div_step h hupper heven'
  omega

theorem unique (hu : IsNearest q u) (hv : IsNearest q v) : u = v :=
  (not_lt.mp (not_lt_of_isNearest hv hu)).antisymm (not_lt.mp (not_lt_of_isNearest hu hv))

end IsNearest

theorem abs_div_sub {den : Nat} (hden : 0 < den) (num n : Nat) :
    |(num / den : ℚ) - n| = (Nat.dist num (n * den) : Nat) / den := by
  have hpos : (0 : ℚ) < den := by
    exact_mod_cast hden
  have hdist : ((Nat.dist num (n * den) : Nat) : ℚ) = |(num : ℚ) - n * den| := by
    obtain hle | hle := Nat.le_total num (n * den)
    . have hcast : (num : ℚ) ≤ n * den := by
        exact_mod_cast hle
      rw [Nat.dist_eq_sub_of_le hle, Nat.cast_sub hle, abs_sub_comm,
        abs_of_nonneg (sub_nonneg.mpr hcast), Nat.cast_mul]
    . have hcast : (n * den : ℚ) ≤ num := by
        exact_mod_cast hle
      rw [Nat.dist_eq_sub_of_le_right hle, Nat.cast_sub hle,
        abs_of_nonneg (sub_nonneg.mpr hcast), Nat.cast_mul]
  rw [hdist, eq_div_iff hpos.ne']
  nth_rewrite 2 [← abs_of_pos hpos]
  rw [← abs_mul, sub_mul, div_mul_cancel₀ _ hpos.ne']

theorem isNearest_roundUnits {den : Nat} (hden : 0 < den) (num : Nat) :
    IsNearest (num / den) (Double.roundUnits num den) := by
  have hpos : (0 : ℚ) < den := by
    exact_mod_cast hden
  refine ⟨Double.roundUnits_representable num den, ?_, ?_⟩
  . intro significand exponent hlt
    rw [abs_div_sub hden, abs_div_sub hden, div_le_div_iff_of_pos_right hpos, Nat.cast_le]
    exact Double.roundUnits_nearest hden ⟨significand, exponent, hlt, rfl⟩
  . intro significand exponent hlt hne htie
    rw [abs_div_sub hden, abs_div_sub hden, div_left_inj' hpos.ne', Nat.cast_inj] at htie
    exact Double.roundUnits_even_of_tie hden ⟨significand, exponent, hlt, rfl⟩ hne htie

theorem Decimal.isNearest_units (d : Decimal) : IsNearest (d.value * Finite.one) d.units := by
  have hnearest := isNearest_roundUnits (ten_pow_pos (-d.exponent).toNat)
    (d.digits * Nat.pow 10 d.exponent.toNat * Finite.one)
  rw [Nat.cast_mul _ Finite.one, mul_div_right_comm, ← value_eq_div] at hnearest
  exact hnearest

namespace Double

variable {negative sign : Bool} {d : Decimal} {x : Finite}

theorem ofDecimal_eq_finite_iff :
    ofDecimal negative d = .finite x ↔
      x.negative = negative ∧ IsNearest (d.value * Finite.one) x.units := by
  rw [ofDecimal_eq_ofRatio]
  constructor
  . intro h
    unfold ofRatio at h
    split at h
    . cases h
      exact ⟨rfl, d.isNearest_units⟩
    . cases h
  . rintro ⟨rfl, hnearest⟩
    have hunits : d.units = x.units := d.isNearest_units.unique hnearest
    unfold Decimal.units at hunits
    unfold ofRatio
    rw [dif_pos (hunits ▸ x.bounded)]
    simp only [hunits]

theorem ofDecimal_eq_infinite_iff :
    ofDecimal negative d = .infinite sign ↔
      sign = negative ∧ ∃ n, Finite.limit ≤ n ∧ IsNearest (d.value * Finite.one) n := by
  rw [ofDecimal_eq_ofRatio]
  constructor
  . intro h
    unfold ofRatio at h
    split at h
    . cases h
    . next hlimit =>
      cases h
      exact ⟨rfl, _, Nat.not_lt.mp hlimit, d.isNearest_units⟩
  . rintro ⟨rfl, n, hlimit, hnearest⟩
    apply ofRatio_of_limit_le
    exact hlimit.trans_eq (hnearest.unique d.isNearest_units)

end Double

end Intake
