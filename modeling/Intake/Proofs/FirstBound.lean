import Intake.Bounds

namespace Intake

namespace Bounds

structure First (bounds : Bounds) (p : Limit → Double → Prop) (limit : Limit) (bound : Double) :
    Prop where
  configured : bounds.get limit = some bound
  holds : p limit bound
  first : ∃ before after, Limit.all = before ++ limit :: after ∧
    ∀ earlier ∈ before, ∀ other, bounds.get earlier = some other → ¬ p earlier other

variable {bounds : Bounds} {limit : Limit} {bound : Double}

theorem First.congr {p q : Limit → Double → Prop} (h : bounds.First p limit bound)
    (hpq : ∀ limit bound, bounds.get limit = some bound → (p limit bound ↔ q limit bound)) :
    bounds.First q limit bound := by
  obtain ⟨configured, holds, before, after, hall, hbefore⟩ := h
  refine ⟨configured, (hpq _ _ configured).mp holds, before, after, hall, ?_⟩
  intro earlier hmem other hother hq
  exact hbefore earlier hmem other hother ((hpq _ _ hother).mpr hq)

theorem find?_configured_eq_none_iff (bounds : Bounds) (p : Limit → Double → Bool) :
    bounds.configured.find? (fun (limit, bound) => p limit bound) = none ↔
      ∀ limit bound, bounds.get limit = some bound → p limit bound = false := by
  simp only [List.find?_eq_none, Prod.forall, mem_configured, Bool.not_eq_true]

theorem find?_configured_eq_some_iff (bounds : Bounds) (p : Limit → Double → Bool) (limit : Limit)
    (bound : Double) :
    bounds.configured.find? (fun (limit, bound) => p limit bound) = some (limit, bound) ↔
      bounds.First (p · · = true) limit bound := by
  have hearlier (earlier : Limit) :
      (!((bounds.get earlier).map (earlier, ·)).any fun (limit, bound) => p limit bound) = true ↔
        ∀ other, bounds.get earlier = some other → ¬ p earlier other = true := by
    cases bounds.get earlier <;> simp
  unfold configured
  rw [List.find?_filterMap, Option.bind_eq_some_iff]
  simp only [List.find?_eq_some_iff_append, hearlier]
  constructor
  . rintro ⟨found, ⟨hany, before, after, hall, hbefore⟩, hmap⟩
    obtain ⟨other, hother, heq⟩ := Option.map_eq_some_iff.mp hmap
    obtain ⟨rfl, rfl⟩ := Prod.mk.inj heq
    rw [hmap] at hany
    exact ⟨hother, hany, before, after, hall, hbefore⟩
  . rintro ⟨configured, holds, before, after, hall, hbefore⟩
    refine ⟨limit, ⟨?_, before, after, hall, hbefore⟩, ?_⟩
    . rw [configured]
      exact holds
    . rw [configured]
      rfl

theorem checkFinite_eq_error_iff (bounds : Bounds) (rejection : Rejection) :
    bounds.checkFinite = .error rejection ↔ ∃ limit bound,
      bounds.First (fun _ bound => bound.isFinite = false) limit bound ∧
        .of (.notFiniteBound limit bound) none = rejection := by
  simp only [← Bool.not_eq_true',
    ← bounds.find?_configured_eq_some_iff fun _ bound => !bound.isFinite]
  unfold checkFinite
  split
  . next limit bound heq =>
    rw [heq, Except.error.injEq]
    constructor
    . intro h
      exact ⟨limit, bound, rfl, h⟩
    . rintro ⟨limit', bound', hsame, h⟩
      obtain ⟨rfl, rfl⟩ := Prod.mk.inj (Option.some.inj hsame)
      exact h
  . next heq => simp [heq]

theorem none_or_first (bounds : Bounds) (p : Limit → Double → Prop) :
    (∀ limit bound, bounds.get limit = some bound → ¬ p limit bound) ∨
      ∃ limit bound, bounds.First p limit bound := by
  classical
  have hnone := bounds.find?_configured_eq_none_iff fun limit bound => decide (p limit bound)
  have hsome := bounds.find?_configured_eq_some_iff fun limit bound => decide (p limit bound)
  cases hfound : bounds.configured.find? fun (limit, bound) => decide (p limit bound) with
  | none =>
    left
    intro limit bound hbound
    exact of_decide_eq_false (hnone.mp hfound limit bound hbound)
  | some found =>
    right
    have hfirst := (hsome found.1 found.2).mp hfound
    exact ⟨found.1, found.2, hfirst.congr fun _ _ _ => decide_eq_true_iff⟩

theorem check_of_first {n : Double}
    (h : bounds.First (fun limit bound => limit.violatedBy bound n = true) limit bound)
    (found : Option Json) :
    bounds.check n found = .error (.of (.outOfBounds limit bound) found) := by
  unfold check
  rw [(bounds.find?_configured_eq_some_iff _ _ _).mpr h]

end Bounds

end Intake
