import Intake.Proofs.Exactness

namespace Intake

section RoundDiv

variable {num num' den k : Nat}

theorem le_roundDiv (num den : Nat) : num / den ≤ roundDiv num den := by
  unfold roundDiv
  split
  . exact Nat.le_refl _
  . split <;> omega

theorem roundDiv_mono (h : num ≤ num') : roundDiv num den ≤ roundDiv num' den := by
  obtain heq | hlt := (Nat.div_le_div_right (c := den) h).eq_or_lt
  . -- The remainders decide if the quotients are equal.
    have hmod : num % den ≤ num' % den := by
      have hnum := Nat.div_add_mod num den
      have hnum' := Nat.div_add_mod num' den
      rw [heq] at hnum
      omega
    unfold roundDiv
    rw [heq]
    split
    . split
      . exact Nat.le_refl _
      . split <;> omega
    . split
      . rw [if_neg (by omega), if_pos (by omega)]
      . rw [if_neg (by omega)]
        split <;> omega
  . calc
      roundDiv num den ≤ num / den + 1 := roundDiv_le num den
      _ ≤ num' / den := hlt
      _ ≤ roundDiv num' den := le_roundDiv num' den

theorem roundDiv_mul (hden : 0 < den) (k : Nat) : roundDiv (k * den) den = k := by
  rw [roundDiv_of_dvd hden (Nat.dvd_mul_left den k), Nat.mul_div_cancel k hden]

theorem roundDiv_le_of_le_mul (hden : 0 < den) (h : num ≤ k * den) : roundDiv num den ≤ k :=
  (roundDiv_mono h).trans_eq (roundDiv_mul hden k)

theorem le_roundDiv_of_mul_le (hden : 0 < den) (h : k * den ≤ num) : k ≤ roundDiv num den :=
  (roundDiv_mul hden k).symm.trans_le (roundDiv_mono h)

theorem roundDiv_mul_mul (hk : 0 < k) (num den : Nat) :
    roundDiv (k * num) (k * den) = roundDiv num den := by
  have hdouble : 2 * (k * (num % den)) = k * (2 * (num % den)) := Nat.mul_left_comm _ _ _
  unfold roundDiv
  rw [Nat.mul_mod_mul_left, Nat.mul_div_mul_left _ _ hk, hdouble]
  simp only [Nat.mul_lt_mul_left hk]

end RoundDiv

namespace Double

variable {num den num' den' k n : Nat}

theorem roundUnits_eq (num den : Nat) :
    roundUnits num den =
      roundDiv num (den * 2 ^ ((num / den).log2 - 52)) * 2 ^ ((num / den).log2 - 52) := by
  unfold roundUnits
  rw [Nat.shiftLeft_eq, Nat.shiftLeft_eq]

theorem roundUnits_mul_mul (hk : 0 < k) (num den : Nat) :
    roundUnits (k * num) (k * den) = roundUnits num den := by
  rw [roundUnits_eq, roundUnits_eq, Nat.mul_div_mul_left _ _ hk, Nat.mul_assoc,
    roundDiv_mul_mul hk]

theorem roundUnits_le_two_pow (hden : 0 < den) (h : num / den < 2 ^ k) :
    roundUnits num den ≤ 2 ^ k := by
  have hstep : (num / den).log2 - 52 ≤ k := by
    by_cases hzero : num / den = 0
    . rw [hzero, Nat.log2_zero]
      omega
    . have hlog := (Nat.log2_lt hzero).mpr h
      omega
  have hpow : 2 ^ (k - ((num / den).log2 - 52)) * 2 ^ ((num / den).log2 - 52) = 2 ^ k := by
    rw [← Nat.pow_add, Nat.sub_add_cancel hstep]
  rw [roundUnits_eq, ← hpow]
  apply Nat.mul_le_mul_right
  apply roundDiv_le_of_le_mul (Nat.mul_pos hden (Nat.two_pow_pos _))
  rw [Nat.mul_left_comm, hpow, Nat.mul_comm]
  exact ((Nat.div_lt_iff_lt_mul hden).mp h).le

theorem two_pow_le_roundUnits (hden : 0 < den) (h : num / den ≠ 0) :
    2 ^ (num / den).log2 ≤ roundUnits num den := by
  have hpow : 2 ^ ((num / den).log2 - ((num / den).log2 - 52)) * 2 ^ ((num / den).log2 - 52) =
      2 ^ (num / den).log2 := by
    rw [← Nat.pow_add, Nat.sub_add_cancel (Nat.sub_le _ _)]
  rw [roundUnits_eq]
  nth_rewrite 1 [← hpow]
  apply Nat.mul_le_mul_right
  apply le_roundDiv_of_mul_le (Nat.mul_pos hden (Nat.two_pow_pos _))
  rw [Nat.mul_left_comm, hpow, Nat.mul_comm]
  exact (Nat.le_div_iff_mul_le hden).mp (Nat.log2_self_le h)

theorem lt_two_pow_log2 {a b : Nat} (h : a ≤ b) (hlog : a.log2 ≠ b.log2) :
    b ≠ 0 ∧ a < 2 ^ b.log2 := by
  have hb : b ≠ 0 := by
    rintro rfl
    exact hlog (by rw [Nat.le_zero.mp h])
  refine ⟨hb, ?_⟩
  by_contra hge
  rw [not_lt] at hge
  have ha : a ≠ 0 := ((Nat.two_pow_pos _).trans_le hge).ne'
  exact hlog ((Nat.log2_eq_iff ha).mpr ⟨hge, h.trans_lt Nat.lt_log2_self⟩)

theorem roundUnits_le_of_num_le (hden : 0 < den) (h : num ≤ num') :
    roundUnits num den ≤ roundUnits num' den := by
  by_cases hsame : (num / den).log2 = (num' / den).log2
  . rw [roundUnits_eq, roundUnits_eq, hsame]
    exact Nat.mul_le_mul_right _ (roundDiv_mono h)
  . -- The larger quotient has more bits, so that a power of two lies between them.
    obtain ⟨hne, hlt⟩ := lt_two_pow_log2 (Nat.div_le_div_right h) hsame
    exact (roundUnits_le_two_pow hden hlt).trans (two_pow_le_roundUnits hden hne)

theorem roundUnits_mono (hden : 0 < den) (hden' : 0 < den') (h : num * den' ≤ num' * den) :
    roundUnits num den ≤ roundUnits num' den' := by
  calc
    roundUnits num den = roundUnits (den' * num) (den' * den) :=
      (roundUnits_mul_mul hden' num den).symm
    _ ≤ roundUnits (den * num') (den' * den) := by
      apply roundUnits_le_of_num_le (Nat.mul_pos hden' hden)
      rw [Nat.mul_comm den' num, Nat.mul_comm den num']
      exact h
    _ = roundUnits (den * num') (den * den') := by rw [Nat.mul_comm den' den]
    _ = roundUnits num' den' := roundUnits_mul_mul hden num' den'

theorem roundUnits_congr (hden : 0 < den) (hden' : 0 < den') (h : num * den' = num' * den) :
    roundUnits num den = roundUnits num' den' :=
  (roundUnits_mono hden hden' h.le).antisymm (roundUnits_mono hden' hden h.ge)

theorem roundUnits_mul (hden : 0 < den)
    (hn : ∃ significand exponent, significand < 1 <<< 53 ∧ n = significand <<< exponent) :
    roundUnits (n * den) den = n := by
  rw [roundUnits_congr hden Nat.one_pos (Nat.mul_one _), roundUnits_of_representable hn]

end Double

end Intake
