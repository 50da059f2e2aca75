import Mathlib.Algebra.Order.Field.Basic
import Mathlib.Algebra.Order.Ring.Rat
import Intake.Pattern.Engine
import Intake.Proofs.Idempotence
import Intake.Proofs.Magnitude
import Intake.Proofs.Rounding

/-!
This module contains what the limits of a field say about the exact value of the number that is
kept. They are checked for a double. A JSON integer that is kept as it was given can be another
number, but rounding does not lead across a bound: the integer can only be beyond one on which the
double lies.
-/

namespace Intake

def Finite.value (x : Finite) : ℚ :=
  x.scaled / Finite.one

def Number.value : Number → ℚ
  | int i _ _ => i
  | float x => x.value

theorem Finite.intCast_mul_one_div (i : Int) : ((i * one : Int) : ℚ) / one = i := by
  have hone : (one : ℚ) ≠ 0 := by
    exact_mod_cast one_pos.ne'
  rw [Int.cast_mul, Int.cast_natCast, mul_div_cancel_right₀ _ hone]

theorem Finite.value_of_scaled_eq {x : Finite} {i : Int} (h : x.scaled = i * one) :
    x.value = i := by
  rw [value, h, intCast_mul_one_div]

theorem Double.value_of_toJson? {n : Double} {number : Number}
    (h : n.toJson? = some (.num number)) : ∃ x, n = finite x ∧ number.value = x.value := by
  cases n with
  | finite x =>
    refine ⟨x, rfl, ?_⟩
    obtain ⟨i, hint, hrange⟩ | hfloat := toJson?_finite x
    . rw [toJson?_of_toInt? hint hrange (by omega), Option.some.injEq, Json.num.injEq] at h
      rw [← h, Finite.value_of_scaled_eq (Finite.toInt?_eq_some_iff.mp hint)]
      rfl
    . rw [hfloat, Option.some.injEq, Json.num.injEq] at h
      rw [← h]
      rfl
  | _ => simp at h

namespace Limit

def Holds {α : Type} [LT α] [LE α] (limit : Limit) (bound n : α) : Prop :=
  match limit with
  | gt => bound < n
  | gte => bound ≤ n
  | lt => n < bound
  | lte => n ≤ bound

variable {limit : Limit} {bound y : Finite} {i : Int}

theorem holds_div_iff (limit : Limit) (bound : Finite) (n : Int) :
    limit.Holds bound.value ((n : ℚ) / Finite.one) ↔ limit.Holds bound.scaled n := by
  have hone : (0 : ℚ) < Finite.one := by
    exact_mod_cast Finite.one_pos
  cases limit <;>
    simp only [Holds, Finite.value, div_lt_div_iff_of_pos_right hone,
      div_le_div_iff_of_pos_right hone, Int.cast_lt, Int.cast_le]

theorem holds_intCast_iff (limit : Limit) (bound : Finite) (i : Int) :
    limit.Holds bound.value (i : ℚ) ↔ limit.Holds bound.scaled (i * Finite.one) := by
  rw [← holds_div_iff, Finite.intCast_mul_one_div]

theorem violatedBy_finite (limit : Limit) (bound n : Finite) :
    limit.violatedBy (.finite bound) (.finite n) = false ↔ limit.Holds bound.scaled n.scaled := by
  cases limit <;> simp [violatedBy, Holds]

/--
An integer that lies beyond a bound and is rounded to it. It has more than 53 bits.
-/
structure Overruns (limit : Limit) (bound : Finite) (i : Int) : Prop where
  inclusive : limit = .gte ∨ limit = .lte
  rounded : (Double.ofInt i).rank? = some bound.scaled
  beyond : ¬ limit.Holds bound.value (i : ℚ)
  large : 9007199254740992 < i.natAbs

theorem overruns_of_not_holds (hround : Double.ofInt i = .finite y)
    (hchecked : limit.Holds bound.scaled y.scaled) (h : ¬ limit.Holds bound.value (i : ℚ)) :
    limit.Overruns bound i := by
  have hbeyond := h
  rw [holds_intCast_iff] at hbeyond
  obtain ⟨hbelow, habove⟩ := Double.scaled_bounds_of_ofInt hround bound
  -- Rounding does not lead across the bound, so that only a number on it is left.
  have heq : y.scaled = bound.scaled ∧ (limit = .gte ∨ limit = .lte) := by
    cases limit <;> simp only [Holds] at hchecked hbeyond <;> simp <;> omega
  refine ⟨heq.2, ?_, h, ?_⟩
  . rw [hround]
    exact congrArg some heq.1
  . by_contra hsmall
    rw [Double.scaled_of_ofInt hround (not_lt.mp hsmall)] at hchecked
    exact hbeyond hchecked

end Limit

namespace Bounds

variable {bounds : Bounds} {found : Option Json} {limit : Limit} {bound : Finite}

theorem holds_of_check {x : Finite} (h : bounds.check (.finite x) found = .ok ())
    (hbound : bounds.get limit = some (.finite bound)) : limit.Holds bound.scaled x.scaled := by
  rw [check_eq_ok_iff] at h
  rw [← Limit.violatedBy_finite]
  exact h limit _ ((mem_configured _ _ _).mpr hbound)

theorem holds_of_toJson? {n : Double} {number : Number} (h : bounds.check n found = .ok ())
    (hjson : n.toJson? = some (.num number))
    (hbound : bounds.get limit = some (.finite bound)) :
    limit.Holds bound.value number.value := by
  obtain ⟨x, rfl, hvalue⟩ := Double.value_of_toJson? hjson
  rw [hvalue]
  exact (Limit.holds_div_iff limit bound x.scaled).mpr (holds_of_check h hbound)

theorem holds_ofInt_iff {i : Int} (hfinite : (Double.ofInt i).isFinite = true)
    (h : bounds.check (.ofInt i) found = .ok ())
    (hbound : bounds.get limit = some (.finite bound)) :
    limit.Holds bound.value (i : ℚ) ↔ ¬ limit.Overruns bound i := by
  constructor
  . intro hholds hoverruns
    exact hoverruns.beyond hholds
  . intro hnot
    by_contra hbeyond
    obtain ⟨y, hround⟩ := Double.exists_eq_finite hfinite
    rw [hround] at h
    exact hnot (Limit.overruns_of_not_holds hround (holds_of_check h hbound) hbeyond)

end Bounds

theorem Definition.bounds_hold_iff [Engine] {definition : Definition} {bounds : Bounds}
    (hkind : definition = .number bounds ∨ definition = .integer bounds)
    {slot cleaned : Option Json} (h : definition.clean slot = .ok cleaned) :
    ∃ number, cleaned = some (.num number) ∧
      ∀ limit bound, bounds.get limit = some (.finite bound) →
        (limit.Holds bound.value number.value ↔
          ¬ (definition = .number bounds ∧ ∃ i least below,
            slot = some (.num (.int i least below)) ∧ limit.Overruns bound i)) := by
  obtain rfl | rfl := hkind
  . obtain ⟨n, kept, hnumeric, hcheck, rfl⟩ := clean_number_eq_ok_iff.mp h
    obtain ⟨number, rfl⟩ := Coercion.number_of_numeric hnumeric
    refine ⟨number, rfl, ?_⟩
    intro limit bound hbound
    by_cases hint : ∃ i least below, slot = some (.num (.int i least below))
    . obtain ⟨i, least, below, rfl⟩ := hint
      rw [Coercion.numeric, Except.ok.injEq, Prod.mk.injEq, Json.num.injEq] at hnumeric
      obtain ⟨rfl, rfl⟩ := hnumeric
      have hfinite := (Number.int i least below).isFinite_toDouble
      simpa [Number.value, least, below] using Bounds.holds_ofInt_iff hfinite hcheck hbound
    . obtain ⟨i, least, below, _, hkept, hslot⟩ | hjson := Coercion.kept_of_numeric hnumeric
      . exact absurd ⟨i, least, below, hkept ▸ hslot⟩ hint
      . have hholds := Bounds.holds_of_toJson? hcheck hjson hbound
        simp only [hholds, true_iff]
        rintro ⟨_, i, least, below, hslot, _⟩
        exact hint ⟨i, least, below, hslot⟩
  . obtain ⟨n, kept, _, _, hcheck, hkept, rfl⟩ := clean_integer_eq_ok_iff.mp h
    obtain ⟨number, rfl⟩ := Coercion.number_of_toJson? hkept
    refine ⟨number, rfl, ?_⟩
    intro limit bound hbound
    simp [Bounds.holds_of_toJson? hcheck hkept hbound]

theorem Definition.bounds_hold_five :
    ∃ number, (Definition.number { gte := some (.finite (.zero false)) }).clean
        (some (.num (.int 5 (by decide) (by decide)))) = .ok (some (.num number)) ∧
      Limit.gte.Holds (Finite.zero false).value number.value := by
  have hclean : (Definition.number { gte := some (.finite (.zero false)) }).clean
      (some (.num (.int 5 (by decide) (by decide)))) =
      .ok (some (.num (.int 5 (by decide) (by decide)))) := by
    decide +kernel
  obtain ⟨number, hnumber, hholds⟩ := bounds_hold_iff (Or.inl rfl) hclean
  rw [Option.some.injEq, Json.num.injEq] at hnumber
  refine ⟨number, hnumber ▸ hclean, (hholds .gte _ rfl).mpr ?_⟩
  rintro ⟨_, i, _, _, hslot, hoverruns⟩
  rw [Option.some.injEq, Json.num.injEq, Number.int.injEq] at hslot
  have hlarge := hoverruns.large
  omega

theorem Definition.beyond_lte_kept :
    ∃ bound number, (Definition.number { lte := some (.finite bound) }).checkBounds = .ok () ∧
      bound.value = 9007199254740992 ∧
      (Definition.number { lte := some (.finite bound) }).clean
        (some (.num (.int 9007199254740993 (by decide) (by decide)))) =
          .ok (some (.num number)) ∧
      ¬ Limit.lte.Holds bound.value number.value := by
  have hvalue : Finite.value ⟨false, 1 <<< 1127, ⟨1, 1127, by decide, rfl⟩, by decide +kernel⟩ =
      ((9007199254740992 : Int) : ℚ) := by
    apply Finite.value_of_scaled_eq
    decide +kernel
  refine ⟨⟨false, 1 <<< 1127, ⟨1, 1127, by decide, rfl⟩, by decide +kernel⟩,
    .int 9007199254740993 (by decide) (by decide), rfl, hvalue, by decide +kernel, ?_⟩
  rw [hvalue]
  simp only [Limit.Holds, Number.value]
  norm_cast

end Intake
