import Intake.Proofs.Cleaning
import Intake.Proofs.Document

namespace Intake

namespace Rejection

def Refuses (rejection : Rejection) (slot : Option Json) : Prop :=
  ∃ cause, (cause.kind = .type ∨ cause.kind = .validation) ∧ rejection = .of cause slot

variable {rejection : Rejection} {slot : Option Json}

@[simp]
theorem kind_of (cause : Cause) (found : Option Json) : (of cause found).kind = cause.kind := rfl

@[simp]
theorem kind_locate (rejection : Rejection) (path : List Segment) :
    (rejection.locate path).kind = rejection.kind := rfl

@[simp]
theorem kind_receivedFrom (rejection : Rejection) (given : Option Json) :
    (rejection.receivedFrom given).kind = rejection.kind := by
  unfold receivedFrom
  split <;> rfl

theorem Refuses.received (h : rejection.Refuses slot) :
    rejection.received = slot.map Json.truncated := by
  obtain ⟨_, _, rfl⟩ := h
  rfl

theorem Refuses.kind (h : rejection.Refuses slot) :
    rejection.kind = .type ∨ rejection.kind = .validation := by
  obtain ⟨_, hkind, rfl⟩ := h
  exact hkind

theorem Refuses.receivedFrom_self (h : rejection.Refuses slot) :
    rejection.receivedFrom slot = rejection := by
  obtain ⟨_, _, rfl⟩ := h
  cases slot <;> rfl

end Rejection

section

variable [Engine]

inductive Definition.MayCause (definition : Definition) : Cause → Prop where
  | notConvertible (value : Json) : MayCause definition (.notConvertible value.typeName)
  | notFinite : MayCause definition .notFinite
  | notBooleanText : MayCause definition .notBooleanText
  | notBooleanNumber : MayCause definition .notBooleanNumber
  | noMatch {rule : TextRule} {pattern : Pattern} (hrule : definition = .string rule)
      (hpattern : rule.pattern = some pattern) : MayCause definition (.noMatch pattern.source)
  | outOfBounds (limit : Limit) (bound : Double) : MayCause definition (.outOfBounds limit bound)

theorem Definition.MayCause.kind {definition : Definition} {cause : Cause}
    (h : definition.MayCause cause) : cause.kind = .type ∨ cause.kind = .validation := by
  cases h with
  | notConvertible | notFinite | notBooleanText | notBooleanNumber => exact Or.inl rfl
  | noMatch | outOfBounds => exact Or.inr rfl

def Definition.Objects (definition : Definition) (slot : Option Json) (rejection : Rejection) :
    Prop :=
  ∃ cause, definition.MayCause cause ∧ rejection = .of cause slot

variable {definition : Definition} {slot : Option Json} {rejection : Rejection}

theorem Definition.objects_of_error_eq {α : Type} {cause : Cause}
    (hcause : definition.MayCause cause)
    (h : (.error (.of cause slot) : Except Rejection α) = .error rejection) :
    definition.Objects slot rejection :=
  ⟨cause, hcause, (Except.error.inj h).symm⟩

theorem Coercion.objects_of_text (h : text slot = .error rejection) :
    definition.Objects slot rejection := by
  unfold text at h
  split at h
  . simp at h
  . simp at h
  . simp at h
  . simp at h
  . simp at h
  . exact Definition.objects_of_error_eq (.notConvertible _) h

theorem Coercion.objects_of_boolean (h : boolean slot = .error rejection) :
    definition.Objects slot rejection := by
  unfold boolean at h
  split at h
  . simp at h
  . simp at h
  . split at h
    . simp at h
    . split at h
      . simp at h
      . exact Definition.objects_of_error_eq .notBooleanText h
  . split at h
    . simp at h
    . split at h
      . simp at h
      . exact Definition.objects_of_error_eq .notBooleanNumber h
  . exact Definition.objects_of_error_eq (.notConvertible _) h

theorem Coercion.objects_of_emit {n : Double} (h : emit n slot = .error rejection) :
    definition.Objects slot rejection := by
  unfold emit at h
  split at h
  . simp at h
  . exact Definition.objects_of_error_eq .notFinite h

theorem Coercion.objects_of_numeric (h : numeric slot = .error rejection) :
    definition.Objects slot rejection := by
  unfold numeric at h
  split at h
  . simp at h
  . simp at h
  . rw [Except.map_eq_error_iff] at h
    exact objects_of_emit h
  . dsimp only at h
    split at h
    . rw [Except.map_eq_error_iff] at h
      exact objects_of_emit h
    . exact Definition.objects_of_error_eq .notFinite h
  . exact Definition.objects_of_error_eq (.notConvertible _) h

theorem Coercion.objects_of_integer (h : integer slot = .error rejection) :
    definition.Objects slot rejection := by
  unfold integer number at h
  rw [Except.map_eq_error_iff, Except.map_eq_error_iff] at h
  exact objects_of_numeric h

theorem TextRule.objects_of_check {rule : TextRule} {text : String}
    (h : rule.check text slot = .error rejection) :
    (Definition.string rule).Objects slot rejection := by
  unfold check at h
  split at h
  . next pattern hpattern =>
    have hmatching := Option.eq_some_of_filter_eq_some hpattern
    exact Definition.objects_of_error_eq (.noMatch rfl hmatching) h
  . simp at h

theorem Bounds.objects_of_check {bounds : Bounds} {n : Double}
    (h : bounds.check n slot = .error rejection) : definition.Objects slot rejection := by
  unfold check at h
  split at h
  . exact Definition.objects_of_error_eq (.outOfBounds _ _) h
  . simp at h

end

namespace Definition

variable [Engine] {definition : Definition} {slot : Option Json} {rejection : Rejection}

theorem objects_of_clean (h : definition.clean slot = .error rejection) :
    definition.Objects slot rejection := by
  cases definition with
  | string rule =>
    simp only [clean, Except.bind_eq_error_iff] at h
    obtain htext | ⟨_, _, hcheck⟩ := h
    . exact Coercion.objects_of_text htext
    . exact TextRule.objects_of_check hcheck
  | number bounds =>
    simp only [clean, Except.bind_eq_error_iff] at h
    obtain hnumeric | ⟨_, _, hcheck | ⟨_, _, hpure⟩⟩ := h
    . exact Coercion.objects_of_numeric hnumeric
    . exact Bounds.objects_of_check hcheck
    . simp [pure, Except.pure] at hpure
  | integer bounds =>
    simp only [clean, Except.bind_eq_error_iff] at h
    obtain hinteger | ⟨_, _, hcheck | ⟨_, _, hemit | ⟨_, _, hpure⟩⟩⟩ := h
    . exact Coercion.objects_of_integer hinteger
    . exact Bounds.objects_of_check hcheck
    . exact Coercion.objects_of_emit hemit
    . simp [pure, Except.pure] at hpure
  | boolean =>
    simp only [clean, Except.bind_eq_error_iff] at h
    obtain hboolean | ⟨_, _, hpure⟩ := h
    . exact Coercion.objects_of_boolean hboolean
    . simp [pure, Except.pure] at hpure

theorem refuses_of_clean (h : definition.clean slot = .error rejection) :
    rejection.Refuses slot := by
  obtain ⟨cause, hcause, rfl⟩ := objects_of_clean h
  exact ⟨cause, hcause.kind, rfl⟩

theorem clean_arr (definition : Definition) (elements : List Json) :
    definition.clean (some (.arr elements)) =
      .error (.of (.notConvertible "array") (some (.arr elements))) := by
  cases definition <;> rfl

theorem mapError_clean_workingValue (definition : Definition) (slot : Option Json) :
    (definition.clean (slot.map Document.workingValue)).mapError (·.receivedFrom slot) =
      definition.clean slot := by
  by_cases harr : ∃ elements, slot = some (.arr elements)
  . -- The array may have lost elements, but it is refused in any case.
    obtain ⟨elements, rfl⟩ := harr
    rw [Option.map_some, Document.workingValue, clean_arr, clean_arr]
    rfl
  . have hworking : slot.map Document.workingValue = slot := by
      cases slot with
      | none => rfl
      | some value =>
        rw [Option.map_some, Document.workingValue_of_ne_arr]
        rintro elements rfl
        exact harr ⟨elements, rfl⟩
    rw [hworking]
    cases h : definition.clean slot with
    | ok cleaned => rfl
    | error rejection => exact congrArg Except.error (refuses_of_clean h).receivedFrom_self

end Definition

end Intake
