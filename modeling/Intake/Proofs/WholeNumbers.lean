import Mathlib.Data.Rat.Floor
import Intake.Pattern.Engine
import Intake.Proofs.Limits

/-!
This module contains what integer fields and number fields make of a number, as exact values: the
rounding of integer fields is the mathematical one, every finite number has a JSON form of exactly
its value, and JSON integers come back unchanged from an integer field as far as they are doubles
and signed 64-bit integers.
-/

namespace Intake

namespace Finite

variable {x : Finite} {i : Int}

theorem value_eq_intCast_iff : x.value = i ↔ x.scaled = i * one := by
  constructor
  . intro h
    have hone : (one : ℚ) ≠ 0 := by
      exact_mod_cast one_pos.ne'
    rw [value, div_eq_iff hone] at h
    exact_mod_cast h
  . exact value_of_scaled_eq

theorem floor_value_add_half (x : Finite) : ⌊x.value + 1 / 2⌋ = x.floorAddHalf := by
  have hone : (one : ℚ) ≠ 0 := by
    exact_mod_cast one_pos.ne'
  have hsum : x.value + 1 / 2 = ((2 * x.scaled + one : Int) : ℚ) / (2 * one : Nat) := by
    rw [value]
    push_cast
    field_simp
  rw [hsum, Rat.floor_intCast_div_natCast]
  rfl

inductive WrittenAs (x : Finite) : Number → Prop where
  | int {i : Int} (value : x.value = i) (least : -9223372036854775808 ≤ i)
      (below : i < 9223372036854775808) (converted : (Double.finite x).toInt64 = i) :
      WrittenAs x (.int i least (Int.lt_trans below (by decide)))
  | float (fractionOrLarge : ∀ i : Int, x.value = i →
      i < -9223372036854775808 ∨ 9223372036854775808 ≤ i) : WrittenAs x (.float x)

theorem exists_toJson? (x : Finite) :
    ∃ number, (Double.finite x).toJson? = some (.num number) ∧ x.WrittenAs number := by
  by_cases h : ∃ i, x.toInt? = some i ∧ -9223372036854775808 ≤ i ∧ i < 9223372036854775808
  . obtain ⟨i, hint, hrange⟩ := h
    have hscaled := toInt?_eq_some_iff.mp hint
    refine ⟨_, Double.toJson?_of_toInt? hint hrange (hrange.2.trans (by decide)), ?_⟩
    exact .int (value_of_scaled_eq hscaled) hrange.1 hrange.2
      (Double.toInt64_of_scaled_eq hscaled hrange)
  . refine ⟨_, (Double.toJson?_finite x).resolve_left h, .float ?_⟩
    intro i hvalue
    by_contra hrange
    rw [not_or, not_lt, not_le] at hrange
    exact h ⟨i, toInt?_eq_some_iff.mpr (value_eq_intCast_iff.mp hvalue), hrange⟩

end Finite

namespace Coercion

variable {slot : Option Json} {x : Finite}

theorem emit_ne_error (x : Finite) (found : Option Json) (rejection : Rejection) :
    emit (.finite x) found ≠ .error rejection := by
  obtain ⟨number, hjson, _⟩ := x.exists_toJson?
  rw [(emit_eq_ok_iff _ _ _).mpr hjson]
  exact nofun

theorem number_eq_ok_iff {n : Double} :
    number slot = .ok n ↔ ∃ kept, numeric slot = .ok (n, kept) := by
  unfold number
  rw [Except.map_eq_ok_iff]
  constructor
  . rintro ⟨⟨n, kept⟩, hnumeric, rfl⟩
    exact ⟨kept, hnumeric⟩
  . rintro ⟨kept, hnumeric⟩
    exact ⟨(n, kept), hnumeric, rfl⟩

end Coercion

namespace Definition

section

variable {slot : Option Json} {x : Finite}

theorem check_empty (n : Double) (found : Option Json) : Bounds.check {} n found = .ok () := rfl

variable [Engine]

theorem clean_integer_of_number (h : Coercion.number slot = .ok (.finite x)) :
    ∃ n number, Coercion.integer slot = .ok (.finite n) ∧ n.value = ⌊x.value + 1 / 2⌋ ∧
      (integer {}).clean slot = .ok (some (.num number)) ∧ n.WrittenAs number := by
  obtain ⟨source, hnumeric⟩ := Coercion.number_eq_ok_iff.mp h
  obtain ⟨n, hround, hscaled⟩ := Double.exists_roundHalfUp x
  obtain ⟨number, hjson, hwritten⟩ := n.exists_toJson?
  refine ⟨n, number, ?_, ?_, ?_, hwritten⟩
  . rw [Coercion.integer, h, ← hround]
    rfl
  . rw [Finite.floor_value_add_half]
    exact Finite.value_of_scaled_eq hscaled
  . rw [← hround] at hjson
    exact clean_integer_eq_ok_iff.mpr ⟨_, _, source, hnumeric, check_empty _ _, hjson, rfl⟩

theorem clean_number_of_number (h : Coercion.number slot = .ok (.finite x))
    (hslot : (∃ y, slot = some (.num (.float y))) ∨ ∃ text, slot = some (.str text)) :
    ∃ kept, (number {}).clean slot = .ok (some (.num kept)) ∧ x.WrittenAs kept := by
  obtain ⟨source, hnumeric⟩ := Coercion.number_eq_ok_iff.mp h
  obtain ⟨kept, hjson, hwritten⟩ := x.exists_toJson?
  obtain ⟨i, least, below, _, rfl, hint⟩ | hsource := Coercion.kept_of_numeric hnumeric
  . obtain ⟨y, hfloat⟩ | ⟨text, htext⟩ := hslot
    . simp [hfloat] at hint
    . simp [htext] at hint
  . obtain rfl := Option.some.inj (hsource.symm.trans hjson)
    exact ⟨kept, clean_number_eq_ok_iff.mpr ⟨_, _, hnumeric, check_empty _ _, rfl⟩, hwritten⟩

theorem rounding_exact (h : Coercion.number slot = .ok (.finite x)) :
    (∃ n kept, Coercion.integer slot = .ok (.finite n) ∧ n.value = ⌊x.value + 1 / 2⌋ ∧
      (integer {}).clean slot = .ok (some (.num kept)) ∧ n.WrittenAs kept) ∧
    ((∃ y, slot = some (.num (.float y))) ∨ (∃ text, slot = some (.str text)) →
      ∃ kept, (number {}).clean slot = .ok (some (.num kept)) ∧ x.WrittenAs kept) ∧
    ∀ y found rejection, Coercion.emit (.finite y) found ≠ .error rejection :=
  ⟨clean_integer_of_number h, clean_number_of_number h, Coercion.emit_ne_error⟩

end

theorem rounding_exact_below_half :
    ∃ x, Coercion.number (some (.str "0.49999999999999994")) = .ok (.finite x) ∧
      ∃ n kept, Coercion.integer (some (.str "0.49999999999999994")) = .ok (.finite n) ∧
        n.value = ⌊x.value + 1 / 2⌋ ∧
        (integer {}).clean (some (.str "0.49999999999999994")) = .ok (some (.num kept)) ∧
          n.WrittenAs kept := by
  have hnumber : Coercion.number (some (.str "0.49999999999999994")) =
      .ok (.finite ⟨false, 9007199254740991 <<< 1020, ⟨9007199254740991, 1020, by decide, rfl⟩,
        by decide +kernel⟩) := by
    decide +kernel
  exact ⟨_, hnumber, (rounding_exact hnumber).1⟩

section

variable [Engine] {i : Int}

theorem clean_integer_int_iff {least : -9223372036854775808 ≤ i}
    {below : i < 18446744073709551616} {y : Finite} (hy : Double.ofInt i = .finite y)
    (kept : Json) :
    (integer {}).clean (some (.num (.int i least below))) = .ok (some kept) ↔
      (Double.finite y).toJson? = some kept := by
  obtain ⟨j, hj⟩ := Double.exists_scaled_of_ofInt hy
  have hnumeric : Coercion.numeric (some (.num (.int i least below))) =
      .ok (.finite y, .num (.int i least below)) := by
    rw [Coercion.numeric, hy]
  rw [clean_integer_eq_ok_iff]
  constructor
  . rintro ⟨n, kept', source, hnumeric', _, hjson, hkept⟩
    rw [hnumeric, Except.ok.injEq, Prod.mk.injEq] at hnumeric'
    rw [← hnumeric'.1, Double.roundHalfUp_of_scaled_eq hj] at hjson
    rw [Option.some.inj hkept, hjson]
  . intro hjson
    refine ⟨_, kept, _, hnumeric, check_empty _ _, ?_, rfl⟩
    rw [Double.roundHalfUp_of_scaled_eq hj, hjson]

theorem clean_int_iff (least : -9223372036854775808 ≤ i) (below : i < 18446744073709551616) :
    (number {}).clean (some (.num (.int i least below))) =
        .ok (some (.num (.int i least below))) ∧
      ((integer {}).clean (some (.num (.int i least below))) =
          .ok (some (.num (.int i least below))) ↔
        (∃ x : Finite, x.value = i) ∧ i < 9223372036854775808) := by
  obtain ⟨y, hy⟩ := Double.exists_eq_finite (Number.int i least below).isFinite_toDouble
  refine ⟨clean_number_eq_ok_iff.mpr ⟨_, _, rfl, check_empty _ _, rfl⟩, ?_⟩
  rw [clean_integer_int_iff hy]
  constructor
  . intro hjson
    obtain ⟨kept, hjson', hwritten⟩ := y.exists_toJson?
    rw [hjson', Option.some.injEq, Json.num.injEq] at hjson
    subst hjson
    cases hwritten with
    | int value _ below => exact ⟨⟨y, value⟩, below⟩
  . rintro ⟨⟨x, hvalue⟩, hbelow⟩
    have hscaled := Finite.value_eq_intCast_iff.mp hvalue
    have heq := hy.symm.trans (Double.ofInt_of_scaled_eq hscaled)
    rw [heq]
    have hsign := Finite.scaled_withSign hscaled
    exact Double.toJson?_of_toInt? (Finite.toInt?_eq_some_iff.mpr hsign) ⟨least, hbelow⟩ below

end

theorem clean_int_two_pow :
    (integer {}).clean (some (.num (.int 4611686018427387904 (by decide) (by decide)))) =
      .ok (some (.num (.int 4611686018427387904 (by decide) (by decide)))) := by
  refine ((clean_int_iff (by decide) (by decide)).2).mpr ⟨⟨⟨false, 1 <<< 1136, ⟨1, 1136, by decide,
    rfl⟩, by decide +kernel⟩, ?_⟩, by decide⟩
  apply Finite.value_of_scaled_eq
  decide +kernel

theorem long_int_rounded :
    (integer {}).clean (some (.num (.int 9007199254740993 (by decide) (by decide)))) =
      .ok (some (.num (.int 9007199254740992 (by decide) (by decide)))) := by
  decide +kernel

end Definition

end Intake
