import Intake.Proofs.Faults

namespace Intake

namespace Field

variable [Engine]

inductive Rejects (field : Field) : Rejection → Prop where
  | member {cause : Cause} (hsub : field.path.sub? = none)
      (hcause : field.definition.MayCause cause) (shown : Option Json) :
      Rejects field ((Rejection.of cause shown).locate [.field field.path.prop.text])
  | notArray {sub : Word} (hsub : field.path.sub? = some sub) (value : Json) :
      Rejects field ((Rejection.of .notArray (some value)).locate [.field field.path.prop.text])
  | notObject {sub : Word} (hsub : field.path.sub? = some sub) (index : Nat) :
      Rejects field ((Rejection.of .notObject none).locate
        [.field field.path.prop.text, .index index, .field sub.text])
  | element {sub : Word} {cause : Cause} (hsub : field.path.sub? = some sub) (index : Nat)
      (hcause : field.definition.MayCause cause) (shown : Option Json) :
      Rejects field ((Rejection.of cause shown).locate
        [.field field.path.prop.text, .index index, .field sub.text])

variable {field : Field} {sub : Word} {doc : Entries Json} {slot : Option Json} {start : Nat}
  {given : List Json} {rejection : Rejection}

theorem rejects_of_cleanElements (hsub : field.path.sub? = some sub)
    (h : field.cleanElements sub.text start given = .error rejection) :
    field.Rejects rejection := by
  obtain ⟨index, element, fault, _, hfault, rfl, _⟩ := (cleanElements_eq_error_iff _ _ _).mp h
  have hsegments : field.path.segments (some (start + index)) =
      [.field field.path.prop.text, .index (start + index), .field sub.text] := by
    simp [FieldPath.segments, hsub]
  rw [hsegments]
  obtain ⟨members, _, hclean⟩ | ⟨_, rfl⟩ := (cleanElement_eq_error_iff _ _).mp hfault
  . obtain ⟨cause, hcause, rfl⟩ := Definition.objects_of_clean hclean
    exact .element hsub _ hcause _
  . exact .notObject hsub _

theorem rejects_of_cleanSlot (h : field.cleanSlot doc slot = .error rejection) :
    field.Rejects rejection := by
  cases hsub : field.path.sub? with
  | none =>
    rw [cleanSlot_of_member hsub, Except.mapError_eq_error_iff] at h
    obtain ⟨_, hshown, rfl⟩ := h
    obtain ⟨fault, hclean, rfl⟩ := (Except.mapError_eq_error_iff _ _ _).mp hshown
    obtain ⟨cause, hcause, rfl⟩ := Definition.objects_of_clean hclean
    cases slot with
    | none => exact .member hsub hcause none
    | some value => exact .member hsub hcause (doc.get? field.path.prop.text)
  | some sub =>
    unfold cleanSlot at h
    rw [hsub] at h
    dsimp only at h
    split at h
    . rw [Except.map_eq_error_iff] at h
      exact rejects_of_cleanElements hsub h
    . next value _ =>
      rw [Except.error.injEq] at h
      exact h ▸ .notArray hsub value
    . simp at h

theorem Rejects.kind (h : field.Rejects rejection) :
    rejection.kind = .type ∨ rejection.kind = .validation ∨ rejection.kind = .schemaMismatch := by
  cases h with
  | member _ hcause | element _ _ hcause => exact hcause.kind.imp_right Or.inl
  | notArray => exact Or.inr (Or.inr rfl)
  | notObject => exact Or.inr (Or.inl rfl)

theorem Rejects.head?_path (h : field.Rejects rejection) :
    rejection.path.head? = some (.field field.path.prop.text) := by
  cases h <;> rfl

end Field

namespace Validator

variable [Engine]

inductive Rejects (validator : Validator) : Json → Rejection → Prop where
  | notDocument {value : Json} (hvalue : ∀ doc, value ≠ .obj doc) :
      Rejects validator value (.of (.notDocument value.typeName) (some value))
  | field {doc : Entries Json} {field : Field} {rejection : Rejection}
      (hfield : field ∈ validator.fields) (h : field.Rejects rejection) :
      Rejects validator (.obj doc) rejection
  | unexpected (doc : Entries Json) :
      Rejects validator (.obj doc) (.of (.unexpected (validator.leftovers doc)) none)

variable {validator : Validator} {value : Json} {rejection : Rejection}

theorem rejects_of_validate (h : validator.validate value = .error rejection) :
    validator.Rejects value rejection := by
  cases value with
  | obj doc =>
    obtain hrun | ⟨_, _, rfl⟩ := (validateObject_eq_error_iff validator doc rejection).mp h
    . obtain ⟨before, field, after, mid, hfields, _, hfault⟩ :=
        (Field.run_eq_error_iff _ _ _).mp hrun
      have hfield : field ∈ validator.fields := by simp [hfields]
      exact .field hfield (Field.rejects_of_cleanSlot hfault)
    . exact .unexpected doc
  | null | bool | num | str | arr =>
    rw [validate, Except.error.injEq] at h
    . exact h ▸ .notDocument (by simp)
    all_goals simp

theorem kind_ne_schema_of_validate (h : validator.validate value = .error rejection) :
    rejection.kind ≠ .schema := by
  cases rejects_of_validate h with
  | notDocument | unexpected => simp [Cause.kind]
  | field _ h => obtain hkind | hkind | hkind := h.kind <;> simp [hkind]

end Validator

end Intake
