import Intake.Proofs.Cleaning
import Intake.Proofs.Emission

namespace Intake

theorem Limit.violatedBy_congr {n n' : Double} (h : n'.rank? = n.rank?) (limit : Limit)
    (bound : Double) : limit.violatedBy bound n' = limit.violatedBy bound n := by
  cases limit <;> simp only [violatedBy, Double.le, Double.lt, h]

theorem Bounds.check_eq_ok_iff (bounds : Bounds) (n : Double) (found : Option Json) :
    bounds.check n found = .ok () ↔
      ∀ limit bound, (limit, bound) ∈ bounds.configured → limit.violatedBy bound n = false := by
  unfold check
  split
  . next limit bound heq =>
    have hviolated := List.find?_some heq
    have hmem := List.mem_of_find?_eq_some heq
    simp only [reduceCtorEq, false_iff]
    intro h
    simp [h limit bound hmem] at hviolated
  . next heq =>
    simpa [List.find?_eq_none] using heq

theorem Bounds.check_of_rank?_eq {bounds : Bounds} {n n' : Double} {found : Option Json}
    (h : bounds.check n found = .ok ()) (hrank : n'.rank? = n.rank?) (found' : Option Json) :
    bounds.check n' found' = .ok () := by
  rw [check_eq_ok_iff] at h ⊢
  intro limit bound hmem
  rw [Limit.violatedBy_congr hrank]
  exact h limit bound hmem

namespace Double

theorem exists_numeric_of_toJson? {n : Double} {kept : Json} (h : n.toJson? = some kept) :
    ∃ x y, n = finite x ∧ Coercion.numeric (some kept) = .ok (finite y, kept) ∧
      y.scaled = x.scaled ∧ (finite y).toJson? = some kept := by
  cases n with
  | finite x =>
    obtain ⟨i, hint, hrange⟩ | hfloat := toJson?_finite x
    . have below : i < 18446744073709551616 := by omega
      rw [toJson?_of_toInt? hint hrange below, Option.some.injEq] at h
      subst h
      -- The integer stands for the double again, up to the sign of zero.
      have hscaled := Finite.toInt?_eq_some_iff.mp hint
      have hsign := Finite.scaled_withSign hscaled
      refine ⟨x, { x with negative := decide (i < 0) }, rfl, ?_, hsign.trans hscaled.symm, ?_⟩
      . rw [Coercion.numeric, ofInt_of_scaled_eq hscaled]
      . exact toJson?_of_toInt? (Finite.toInt?_eq_some_iff.mpr hsign) hrange below
    . have heq := hfloat.symm.trans h
      rw [Option.some.injEq] at heq
      subst heq
      refine ⟨x, x, rfl, ?_, rfl, hfloat⟩
      rw [Coercion.numeric, (Coercion.emit_eq_ok_iff _ _ _).mpr hfloat]
      rfl
  | _ => simp at h

end Double

theorem Coercion.exists_numeric_of_numeric {slot : Option Json} {n : Double} {kept : Json}
    (h : numeric slot = .ok (n, kept)) :
    ∃ n', numeric (some kept) = .ok (n', kept) ∧ n'.rank? = n.rank? := by
  obtain ⟨value, least, below, rfl, rfl, _⟩ | hjson := kept_of_numeric h
  . exact ⟨.ofInt value, rfl, rfl⟩
  . obtain ⟨x, y, rfl, hnumeric, hscaled, _⟩ := Double.exists_numeric_of_toJson? hjson
    exact ⟨.finite y, hnumeric, congrArg some hscaled⟩

theorem Coercion.exists_numeric_of_roundHalfUp {n : Double} {kept : Json}
    (h : n.roundHalfUp.toJson? = some kept) :
    ∃ n', numeric (some kept) = .ok (n', kept) ∧ n'.roundHalfUp.rank? = n.roundHalfUp.rank? ∧
      n'.roundHalfUp.toJson? = some kept := by
  obtain ⟨x, y, hround, hnumeric, hscaled, hjson⟩ := Double.exists_numeric_of_toJson? h
  -- The rounded number is whole, so that it is not rounded again.
  obtain ⟨i, hi⟩ := Double.exists_scaled_of_roundHalfUp hround
  have hself := Double.roundHalfUp_of_scaled_eq (hscaled.trans hi)
  refine ⟨.finite y, hnumeric, ?_, ?_⟩
  . rw [hself, hround]
    exact congrArg some hscaled
  . rw [hself]
    exact hjson

namespace Definition

variable [Engine] {definition : Definition} {slot cleaned : Option Json}

theorem clean_cleaned (h : definition.clean slot = .ok cleaned) :
    definition.clean cleaned = .ok cleaned := by
  cases definition with
  | string rule =>
    obtain ⟨text, _, hmatch, rfl⟩ := clean_string_eq_ok_iff.mp h
    refine clean_string_eq_ok_iff.mpr ⟨text, ?_, hmatch, rfl⟩
    split
    . next homit =>
      rw [Bool.and_eq_true, decide_eq_true_eq] at homit
      rw [homit.2]
      rfl
    . rfl
  | number bounds =>
    obtain ⟨n, kept, hnumeric, hcheck, rfl⟩ := clean_number_eq_ok_iff.mp h
    obtain ⟨n', hnumeric', hrank⟩ := Coercion.exists_numeric_of_numeric hnumeric
    exact clean_number_eq_ok_iff.mpr
      ⟨n', kept, hnumeric', Bounds.check_of_rank?_eq hcheck hrank _, rfl⟩
  | integer bounds =>
    obtain ⟨n, kept, _, _, hcheck, hkept, rfl⟩ := clean_integer_eq_ok_iff.mp h
    obtain ⟨n', hnumeric', hrank, hkept'⟩ := Coercion.exists_numeric_of_roundHalfUp hkept
    exact clean_integer_eq_ok_iff.mpr
      ⟨n', kept, kept, hnumeric', Bounds.check_of_rank?_eq hcheck hrank _, hkept', rfl⟩
  | boolean =>
    obtain ⟨b, _, rfl⟩ := clean_boolean_eq_ok_iff.mp h
    exact clean_boolean_eq_ok_iff.mpr ⟨b, rfl, rfl⟩

end Definition

end Intake
