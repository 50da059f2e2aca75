import Intake.Pattern.Engine
import Intake.Proofs.FirstBound
import Intake.Proofs.IntegerText
import Intake.Proofs.Loading

namespace Intake

open Intake.Finite

inductive Spells (i : Int) : Json → Prop where
  | int (least : -9223372036854775808 ≤ i) (below : i < 18446744073709551616) :
      Spells i (.num (.int i least below))
  | float (x : Finite) (value : x.value = i) : Spells i (.num (.float x))
  | text : Spells i (.str (toString i))

def Limit.Excludes (i : Int) (limit : Limit) (bound : Double) : Prop :=
  ∃ b, bound = .finite b ∧ ¬ limit.Holds b.value (i : ℚ)

variable {i : Int} {value : Json} {x : Finite} {least : -9223372036854775808 ≤ i}
  {below : i < 18446744073709551616}

theorem Limit.violatedBy_iff_excludes {limit : Limit} {bound : Double} (hvalue : x.value = i)
    (hfinite : bound.isFinite = true) :
    limit.violatedBy bound (.finite x) = true ↔ limit.Excludes i bound := by
  obtain ⟨b, rfl⟩ := Double.exists_eq_finite hfinite
  rw [← Bool.not_eq_false, violatedBy_finite, value_eq_intCast_iff.mp hvalue, ← holds_intCast_iff]
  simp [Excludes]

namespace Double

theorem exists_value_eq (h : i.natAbs ≤ 9007199254740992) :
    ∃ x, ofInt i = finite x ∧ x.value = i := by
  obtain ⟨x, hint, hscaled⟩ := exists_ofInt_of_natAbs_le h
  exact ⟨x, hint, value_of_scaled_eq hscaled⟩

theorem ofText_toString (h : i.natAbs ≤ 9007199254740992) :
    ∃ x, ofText (toString i) = finite x ∧ x.value = i := by
  obtain ⟨x, _, hvalue⟩ := exists_value_eq h
  rw [← text_of_value_eq hvalue h, ofText_text]
  split
  . next hzero =>
    refine ⟨_, rfl, ?_⟩
    rw [← hvalue, Finite.value, Finite.value, scaled_zero, scaled_of_units_eq_zero hzero,
      Int.zero_mul]
  . exact ⟨x, rfl, hvalue⟩

end Double

theorem Coercion.emit_of_value_eq (h : i.natAbs ≤ 9007199254740992) (hvalue : x.value = i)
    (found : Option Json) : emit (.finite x) found = .ok (.num (.int i least below)) := by
  have hint := toInt?_eq_some_iff.mpr (value_eq_intCast_iff.mp hvalue)
  rw [emit_eq_ok_iff]
  exact Double.toJson?_of_toInt? hint ⟨least, by omega⟩ below

namespace Spells

theorem text_eq (hspells : Spells i value) (h : i.natAbs ≤ 9007199254740992) :
    Coercion.text (some value) = .ok (toString i) := by
  cases hspells with
  | int => rfl
  | float x hvalue => rw [Coercion.text, Double.text_of_value_eq hvalue h]
  | text => rfl

theorem exists_numeric_eq (hspells : Spells i value) (h : i.natAbs ≤ 9007199254740992)
    (least : -9223372036854775808 ≤ i) (below : i < 18446744073709551616) :
    ∃ x : Finite, x.value = i ∧
      Coercion.numeric (some value) = .ok (.finite x, .num (.int i least below)) := by
  cases hspells with
  | int =>
    obtain ⟨x, hint, hvalue⟩ := Double.exists_value_eq h
    refine ⟨x, hvalue, ?_⟩
    rw [Coercion.numeric, hint]
  | float x hvalue =>
    refine ⟨x, hvalue, ?_⟩
    rw [Coercion.numeric, Coercion.emit_of_value_eq h hvalue]
    rfl
  | text =>
    obtain ⟨x, htext, hvalue⟩ := Double.ofText_toString h
    refine ⟨x, hvalue, ?_⟩
    rw [Coercion.numeric, htext, Coercion.emit_of_value_eq h hvalue]
    rfl

end Spells

namespace Definition

section

variable [Engine] {definition : Definition} {bounds : Bounds} {slot : Option Json}

theorem clean_eq_map_check (hkind : definition = number bounds ∨ definition = integer bounds)
    (h : i.natAbs ≤ 9007199254740992) (hvalue : x.value = i)
    (hnumeric : Coercion.numeric slot = .ok (.finite x, .num (.int i least below))) :
    definition.clean slot =
      (bounds.check (.finite x) slot).map fun _ => some (.num (.int i least below)) := by
  obtain rfl | rfl := hkind
  . rw [clean, hnumeric]
    rfl
  . have hround := Double.roundHalfUp_of_scaled_eq (value_eq_intCast_iff.mp hvalue)
    have hinteger : Coercion.integer slot = .ok (.finite x) := by
      rw [Coercion.integer, Coercion.number, hnumeric]
      exact congrArg Except.ok hround
    rw [clean, hinteger]
    change (do
      bounds.check (.finite x) slot
      let kept ← Coercion.emit (.finite x) slot
      return some kept) = _
    rw [Coercion.emit_of_value_eq h hvalue]
    rfl

/--
An integer up to 2 to the power of 53 may be given in any way. A string field makes its digits of
it, and number fields and integer fields keep the integer or name the first bound that excludes it.
-/
theorem spelling_irrelevant (h : i.natAbs ≤ 9007199254740992) :
    (∃ x : Finite, x.value = i) ∧
    (∀ value, Spells i value →
      (string {}).clean (some value) = .ok (some (.str (toString i)))) ∧
    ∀ definition bounds, definition = number bounds ∨ definition = integer bounds →
      definition.HasFiniteBounds →
        ((∀ limit bound, bounds.get limit = some bound → ¬ limit.Excludes i bound) ∧
          ∃ least below, ∀ value, Spells i value →
            definition.clean (some value) = .ok (some (.num (.int i least below)))) ∨
        ∃ limit bound, bounds.First (Limit.Excludes i) limit bound ∧
          ∀ value, Spells i value → ∃ rejection, definition.clean (some value) = .error rejection ∧
            rejection.cause = .outOfBounds limit bound ∧ rejection.kind = .validation := by
  refine ⟨?_, ?_, ?_⟩
  . obtain ⟨x, _, hvalue⟩ := Double.exists_value_eq h
    exact ⟨x, hvalue⟩
  . intro value hspells
    rw [clean, hspells.text_eq h]
    rfl
  . intro definition bounds hkind hfinite
    have hbounds : definition.bounds = bounds := by
      obtain rfl | rfl := hkind <;> rfl
    unfold HasFiniteBounds at hfinite
    rw [hbounds] at hfinite
    have least : -9223372036854775808 ≤ i := by omega
    have below : i < 18446744073709551616 := by omega
    obtain hnone | ⟨limit, bound, hfirst⟩ := bounds.none_or_first (Limit.Excludes i)
    . refine Or.inl ⟨hnone, least, below, ?_⟩
      intro value hspells
      obtain ⟨x, hvalue, hnumeric⟩ := hspells.exists_numeric_eq h least below
      have hcheck : bounds.check (.finite x) (some value) = .ok () := by
        rw [Bounds.check_eq_ok_iff]
        intro limit bound hmem
        rw [Bounds.mem_configured] at hmem
        rw [← Bool.not_eq_true, Limit.violatedBy_iff_excludes hvalue (hfinite limit bound hmem)]
        exact hnone limit bound hmem
      rw [clean_eq_map_check hkind h hvalue hnumeric, hcheck]
      rfl
    . -- The double has the value of the integer, so that both violate the same bounds.
      refine Or.inr ⟨limit, bound, hfirst, ?_⟩
      intro value hspells
      obtain ⟨x, hvalue, hnumeric⟩ := hspells.exists_numeric_eq h least below
      have hcheck := Bounds.check_of_first (n := .finite x) (hfirst.congr fun limit bound hbound =>
        (Limit.violatedBy_iff_excludes hvalue (hfinite limit bound hbound)).symm) (some value)
      rw [clean_eq_map_check hkind h hvalue hnumeric, hcheck]
      exact ⟨_, rfl, rfl, rfl⟩

end

theorem spelling_irrelevant_two_pow :
    ∃ x : Finite, x.value = (9007199254740992 : Int) ∧
      (string {}).clean (some (.num (.float x))) = .ok (some (.str "9007199254740992")) ∧
      ∃ rejection,
        (integer { lt := some (.finite x) }).clean (some (.str "9007199254740992")) =
          .error rejection ∧
        rejection.cause = .outOfBounds .lt (.finite x) := by
  have htoString : toString (9007199254740992 : Int) = "9007199254740992" := by decide
  obtain ⟨⟨x, hvalue⟩, htext, hfields⟩ :=
    spelling_irrelevant (by decide : (9007199254740992 : Int).natAbs ≤ 9007199254740992)
  have honly (limit : Limit) (bound : Double)
      (h : Bounds.get { lt := some (.finite x) } limit = some bound) :
      limit = .lt ∧ bound = .finite x := by
    cases limit <;> simp [Bounds.get] at h
    exact ⟨rfl, h.symm⟩
  have hfinite : (integer { lt := some (.finite x) }).HasFiniteBounds := by
    intro limit bound hbound
    rw [(honly limit bound hbound).2]
    rfl
  have hfloat := htext _ (.float x hvalue)
  rw [htoString] at hfloat
  refine ⟨x, hvalue, hfloat, ?_⟩
  obtain ⟨hnone, _⟩ | ⟨limit, bound, hfirst, hreject⟩ :=
    hfields _ _ (Or.inr rfl) hfinite
  . have hexcluded : Limit.lt.Excludes 9007199254740992 (.finite x) :=
      ⟨x, rfl, fun hlt => ne_of_lt hlt hvalue.symm⟩
    exact absurd hexcluded (hnone .lt (.finite x) rfl)
  . obtain ⟨rejection, hclean, hcause, _⟩ := hreject _ .text
    rw [htoString] at hclean
    obtain ⟨rfl, rfl⟩ := honly limit bound hfirst.configured
    exact ⟨rejection, hclean, hcause⟩

end Definition

end Intake
