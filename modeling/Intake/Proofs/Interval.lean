import Mathlib.Tactic.Linarith
import Intake.Proofs.Monotone

/-!
This module contains how near a ratio has to be to a representable number to be rounded to it: less
than half of the step to the next number, where the step above `n` is `2 ^ (n.log2 - 52)`. The step
below is the same unless `n` is a power of two, which has more bits than the numbers below it.
-/

namespace Intake

section RoundDiv

variable {num den k : Nat}

theorem roundDiv_le_of_lt (hden : 0 < den) (h : 2 * num < (2 * k + 1) * den) :
    roundDiv num den ≤ k := by
  have hmod := Nat.div_add_mod num den
  have hdiv : num / den < k + 1 := by
    rw [Nat.div_lt_iff_lt_mul hden]
    linarith
  by_cases heq : num / den = k
  . have hsmall : 2 * (num % den) < den := by
      rw [heq] at hmod
      linarith
    unfold roundDiv
    rw [if_pos hsmall, heq]
  . have hle := roundDiv_le num den
    omega

theorem le_roundDiv_of_lt (hden : 0 < den) (h : 2 * k * den < 2 * num + den) :
    k ≤ roundDiv num den := by
  have hmod := Nat.div_add_mod num den
  have hlt := Nat.mod_lt num hden
  have hdiv : k < num / den + 2 := by
    apply Nat.lt_of_mul_lt_mul_right (a := den)
    linarith
  by_cases heq : k = num / den + 1
  . have hlarge : den < 2 * (num % den) := by
      rw [heq] at h
      linarith
    unfold roundDiv
    rw [if_neg (by omega), if_pos hlarge, heq]
  . have hle := le_roundDiv num den
    omega

end RoundDiv

namespace Double

variable {num den n t : Nat}

theorem add_le_of_dvd {d a b : Nat} (ha : d ∣ a) (hb : d ∣ b) (h : a < b) : a + d ≤ b := by
  have hle := Nat.le_of_dvd (Nat.sub_pos_of_lt h) (Nat.dvd_sub hb ha)
  omega

theorem roundUnits_le_of_lt
    (hn : ∃ significand exponent, significand < 1 <<< 53 ∧ n = significand <<< exponent)
    (hne : n ≠ 0) (hden : 0 < den) (h : 2 * num < (2 * n + 2 ^ (n.log2 - 52)) * den) :
    roundUnits num den ≤ n := by
  have hdvd := two_pow_dvd_of_representable hn (Nat.log2_self_le hne)
  by_cases hle : num ≤ n * den
  . exact (roundUnits_le_of_num_le hden hle).trans_eq (roundUnits_mul hden hn)
  . have hquot : n ≤ num / den := (Nat.le_div_iff_mul_le hden).mpr (not_le.mp hle).le
    have hnext : n + 2 ^ (n.log2 - 52) ≤ 2 ^ (n.log2 + 1) :=
      add_le_of_dvd hdvd (Nat.pow_dvd_pow 2 (by omega)) Nat.lt_log2_self
    -- The ratio has as many bits as the number, so that both are counted in the same steps.
    have hlog : (num / den).log2 = n.log2 := by
      rw [Nat.log2_eq_iff (by omega)]
      refine ⟨(Nat.log2_self_le hne).trans hquot, ?_⟩
      rw [Nat.div_lt_iff_lt_mul hden]
      have hmul := Nat.mul_le_mul_right den hnext
      linarith
    obtain ⟨m, hm⟩ := hdvd
    rw [roundUnits_eq, hlog]
    generalize 2 ^ (n.log2 - 52) = step at *
    have hstep : 0 < step := by
      apply Nat.pos_of_ne_zero
      rintro rfl
      omega
    calc
      roundDiv num (den * step) * step ≤ m * step := by
        apply Nat.mul_le_mul_right
        apply roundDiv_le_of_lt (Nat.mul_pos hden hstep)
        rw [hm] at h
        linarith
      _ = n := by rw [hm, Nat.mul_comm]

theorem two_pow_le_quotient
    (hn : ∃ significand exponent, significand < 1 <<< 53 ∧ n = significand <<< exponent)
    (hne : n ≠ 0) {u : Nat} (hden : 0 < den) (ht : u + 1 ≤ n.log2 - 52)
    (hpow : n = 2 ^ n.log2 → u + 1 ≤ n.log2 - 52 - 1)
    (h : 2 * n * den < 2 * num + 2 ^ (u + 1) * den) : 2 ^ (u + 53) ≤ num / den := by
  have hquot : n < num / den + 1 + 2 ^ u := by
    have hmod := Nat.div_add_mod num den
    have hlt := Nat.mod_lt num hden
    rw [Nat.pow_succ] at h
    apply Nat.lt_of_mul_lt_mul_right (a := den)
    linarith
  have hsmall : 2 ^ u ≤ 2 ^ (u + 53) := Nat.pow_le_pow_right (by decide) (by omega)
  by_cases heq : n = 2 ^ n.log2
  . have hlarge : 2 ^ (u + 53 + 1) ≤ n := by
      rw [heq]
      exact Nat.pow_le_pow_right (by decide) (by have hle := hpow heq; omega)
    rw [Nat.pow_succ] at hlarge
    omega
  . have hdvd := two_pow_dvd_of_representable hn (Nat.log2_self_le hne)
    have hnext : 2 ^ n.log2 + 2 ^ (n.log2 - 52) ≤ n :=
      add_le_of_dvd (Nat.pow_dvd_pow 2 (Nat.sub_le _ _)) hdvd
        (lt_of_le_of_ne (Nat.log2_self_le hne) (Ne.symm heq))
    have hlarge : 2 ^ (u + 53) ≤ 2 ^ n.log2 := Nat.pow_le_pow_right (by decide) (by omega)
    have hstep : 2 ^ u ≤ 2 ^ (n.log2 - 52) := Nat.pow_le_pow_right (by decide) (by omega)
    omega

theorem le_roundUnits_of_lt
    (hn : ∃ significand exponent, significand < 1 <<< 53 ∧ n = significand <<< exponent)
    (hne : n ≠ 0) (hden : 0 < den) (ht : t ≤ n.log2 - 52)
    (hpow : n = 2 ^ n.log2 → t ≤ n.log2 - 52 - 1)
    (h : 2 * n * den < 2 * num + 2 ^ t * den) : n ≤ roundUnits num den := by
  by_cases hle : n * den ≤ num
  . exact (roundUnits_mul hden hn).symm.trans_le (roundUnits_le_of_num_le hden hle)
  . have hquot : num / den < n := (Nat.div_lt_iff_lt_mul hden).mpr (not_le.mp hle)
    have hlower : t ≤ (num / den).log2 - 52 := by
      cases t with
      | zero => exact Nat.zero_le _
      | succ u =>
        have hlarge := two_pow_le_quotient hn hne hden ht hpow h
        have hlog := (Nat.le_log2 ((Nat.two_pow_pos _).trans_le hlarge).ne').mpr hlarge
        omega
    have hupper : (num / den).log2 - 52 ≤ n.log2 - 52 := by
      by_cases hzero : num / den = 0
      . simp [hzero]
      . have hlog := (Nat.le_log2 hne).mpr ((Nat.log2_self_le hzero).trans hquot.le)
        omega
    have hdvd := two_pow_dvd_of_representable hn (Nat.log2_self_le hne)
    obtain ⟨m, hm⟩ := (Nat.pow_dvd_pow 2 hupper).trans hdvd
    have hstep : 2 ^ t ≤ 2 ^ ((num / den).log2 - 52) := Nat.pow_le_pow_right (by decide) hlower
    have hpos := Nat.two_pow_pos ((num / den).log2 - 52)
    rw [roundUnits_eq]
    generalize 2 ^ ((num / den).log2 - 52) = step at *
    calc
      n = m * step := by rw [hm, Nat.mul_comm]
      _ ≤ roundDiv num (den * step) * step := by
        apply Nat.mul_le_mul_right
        apply le_roundDiv_of_lt (Nat.mul_pos hden hpos)
        have hmul := Nat.mul_le_mul_right den hstep
        rw [hm] at h
        linarith

theorem exists_step_below (n : Nat) :
    ∃ t, t ≤ n.log2 - 52 ∧ (n = 2 ^ n.log2 → t ≤ n.log2 - 52 - 1) ∧
      2 * n < (2 ^ (n.log2 - 52) + 2 ^ t) * 10 ^ 16 := by
  by_cases hpow : n = 2 ^ n.log2 ∧ 53 ≤ n.log2
  . obtain ⟨k, hk⟩ := Nat.exists_eq_add_of_le' hpow.2
    have hstep : n.log2 - 52 = k + 1 := by omega
    refine ⟨k, by omega, by omega, ?_⟩
    rw [hstep, hpow.1, hk, Nat.pow_add, Nat.pow_succ]
    have hpos := Nat.two_pow_pos k
    omega
  . refine ⟨n.log2 - 52, Nat.le_refl _, by omega, ?_⟩
    have hlt : n < 2 ^ (n.log2 - 52) * 2 ^ 53 := by
      rw [← Nat.pow_add]
      exact Nat.lt_log2_self.trans_le (Nat.pow_le_pow_right (by decide) (by omega))
    omega

theorem roundUnits_of_consecutive {step k : Nat}
    (hn : ∃ significand exponent, significand < 1 <<< 53 ∧ n = significand <<< exponent)
    (hne : n ≠ 0) (hden : 0 < den) (hstep : step * 10 ^ 16 ≤ n * den)
    (hbelow : step * k ≤ n * den) (habove : n * den ≤ step * (k + 1)) :
    roundUnits (step * k) den = n ∨ roundUnits (step * (k + 1)) den = n := by
  obtain ⟨t, ht, hpow, hwide⟩ := exists_step_below n
  have hlower := roundUnits_le_of_num_le hden hbelow
  have hupper := roundUnits_le_of_num_le hden habove
  rw [roundUnits_mul hden hn] at hlower hupper
  by_contra hnone
  rw [not_or] at hnone
  -- Otherwise both multiples are at least half of a step away.
  have hfar : 2 * (step * k) + 2 ^ t * den ≤ 2 * n * den := by
    by_contra hnear
    exact hnone.1 (hlower.antisymm (le_roundUnits_of_lt hn hne hden ht hpow (not_le.mp hnear)))
  have hfar' : (2 * n + 2 ^ (n.log2 - 52)) * den ≤ 2 * (step * (k + 1)) := by
    by_contra hnear
    exact hnone.2 ((roundUnits_le_of_lt hn hne hden (not_le.mp hnear)).antisymm hupper)
  have hmul := Nat.mul_lt_mul_of_pos_right hwide hden
  generalize 2 ^ (n.log2 - 52) = above at *
  generalize 2 ^ t = below at *
  have hwidth : (above + below) * den ≤ 2 * step := by linarith
  have hwidth' := Nat.mul_le_mul_right (10 ^ 16) hwidth
  linarith

end Double

end Intake
