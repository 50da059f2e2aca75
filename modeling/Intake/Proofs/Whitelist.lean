import Intake.Pattern.Engine
import Intake.Proofs.Compilation
import Intake.Proofs.Document
import Intake.Proofs.Run

/-!
This module contains what an accepted document may carry. Keys are claimed by their spelling, while
fields clean places. The two agree except for a member that is no array and whose key is spelled
like the path of a field in an array: it is claimed, but no field has cleaned it.
-/

namespace Intake

namespace Validator

section

variable [Engine]

def Whitelists (validator : Validator) (key : String) (value : Json) : Prop :=
  (∃ field ∈ validator.fields, field.path.sub? = none ∧ field.path.text = key) ∨
  (∃ field ∈ validator.fields, field.path.sub?.isSome = true ∧ field.path.prop.text = key) ∨
  ∃ elements, value = .arr elements ∧ ∀ element ∈ elements, element = .null ∨ element = .obj []

/--
A member that is claimed because its key is spelled like the path of a field in an array.
-/
def Misclaims (validator : Validator) (key : String) (value : Json) : Prop :=
  (∀ elements, value ≠ .arr elements) ∧
    ∃ field ∈ validator.fields, field.path.sub?.isSome = true ∧ field.path.text = key

variable {validator : Validator} {doc out : Entries Json} {key : String} {value : Json}

theorem not_whitelists_of_misclaims (h : validator.Misclaims key value) :
    (∀ field ∈ validator.fields, field.path.prop.text ≠ key) ∧
      ¬ validator.Whitelists key value := by
  obtain ⟨hvalue, field, _, hsub, rfl⟩ := h
  have hdot := (field.path.dot_mem_text_iff).mpr hsub
  have hprop : ∀ other ∈ validator.fields, other.path.prop.text ≠ field.path.text := by
    intro other _ heq
    rw [← heq] at hdot
    exact other.path.prop.dot_notMem hdot
  refine ⟨hprop, ?_⟩
  rintro (⟨other, hother, hnone, heq⟩ | ⟨other, hother, _, heq⟩ | ⟨elements, rfl, _⟩)
  . rw [FieldPath.text_eq_of_sub?_eq_none hnone] at heq
    exact hprop other hother heq
  . exact hprop other hother heq
  . exact hvalue elements rfl

theorem mem_output_iff_of_forall_prop_ne (h : validator.validate (.obj doc) = .ok out)
    (hprop : ∀ field ∈ validator.fields, field.path.prop.text ≠ key) (value : Json) :
    (key, value) ∈ out ↔ ∃ given, (key, given) ∈ doc ∧ Document.workingValue given = value := by
  rw [validate_obj, validateObject_eq_ok_iff] at h
  rw [Update.mem_run_of_notMem (Field.key_ne_of_forall_prop_ne hprop) h.1,
    Document.mem_workingCopy_iff]

theorem exists_field_of_records (h : validator.validate (.obj doc) = .ok out)
    (hkey : Document.Records doc key) : ∃ field ∈ validator.fields, field.path.text = key := by
  have hmem := mem_paths_of_validateObject h hkey
  simpa [paths] using hmem

theorem hollow_of_forall_prop_ne (h : validator.validate (.obj doc) = .ok out)
    (hprop : ∀ field ∈ validator.fields, field.path.prop.text ≠ key) {elements : List Json}
    (hmem : (key, .arr elements) ∈ doc) :
    ∀ element ∈ elements.map Document.workingElement, element = .null ∨ element = .obj [] := by
  intro element helement
  obtain ⟨given, hgiven, rfl⟩ := List.mem_map.mp helement
  cases given with
  | obj members =>
    right
    cases members with
    | nil => rfl
    | cons member rest =>
      -- The first key is claimed, and only a field of the array can do that.
      have hrecords : Document.Records doc (key ++ "." ++ member.1) :=
        Document.Records.element hmem hgiven (by simp [Entries.keys])
      obtain ⟨field, hfield, htext⟩ := exists_field_of_records h hrecords
      rw [FieldPath.text_eq_dotted_iff] at htext
      exact absurd htext.1 (hprop field hfield)
  | _ => exact Or.inl rfl

theorem whitelists_or_misclaims (h : validator.validate (.obj doc) = .ok out)
    (hmem : (key, value) ∈ out) :
    validator.Whitelists key value ∨ (validator.Misclaims key value ∧ (key, value) ∈ doc) := by
  by_cases hprop : ∃ field ∈ validator.fields, field.path.prop.text = key
  . obtain ⟨field, hfield, hkey⟩ := hprop
    left
    cases hsub : field.path.sub? with
    | none =>
      left
      exact ⟨field, hfield, hsub, (FieldPath.text_eq_of_sub?_eq_none hsub).trans hkey⟩
    | some sub =>
      right
      left
      exact ⟨field, hfield, by simp [hsub], hkey⟩
  . have hprop : ∀ field ∈ validator.fields, field.path.prop.text ≠ key := by
      simpa using hprop
    obtain ⟨given, hgiven, rfl⟩ := (mem_output_iff_of_forall_prop_ne h hprop value).mp hmem
    by_cases harr : ∃ elements, given = .arr elements
    . obtain ⟨elements, rfl⟩ := harr
      left
      right
      right
      exact ⟨_, rfl, hollow_of_forall_prop_ne h hprop hgiven⟩
    . -- No field cleans the member, so that only the spelling of its key can have claimed it.
      have hvalue : ∀ elements, given ≠ .arr elements := by
        simpa using harr
      right
      rw [Document.workingValue_of_ne_arr hvalue]
      obtain ⟨field, hfield, htext⟩ := exists_field_of_records h (.member hgiven hvalue)
      refine ⟨⟨hvalue, field, hfield, ?_, htext⟩, hgiven⟩
      cases hsub : field.path.sub? with
      | none =>
        rw [FieldPath.text_eq_of_sub?_eq_none hsub] at htext
        exact absurd htext (hprop field hfield)
      | some sub => rfl

theorem output_whitelisted_iff (h : validator.validate (.obj doc) = .ok out) :
    (∀ member ∈ out, validator.Whitelists member.1 member.2 ∨
      (validator.Misclaims member.1 member.2 ∧ member ∈ doc)) ∧
    ((∀ member ∈ out, validator.Whitelists member.1 member.2) ↔
      ∀ member ∈ doc, ¬ validator.Misclaims member.1 member.2) := by
  refine ⟨fun member hmem => whitelists_or_misclaims h hmem, ?_⟩
  constructor
  . intro hall member hmem hmis
    obtain ⟨hprop, hnot⟩ := not_whitelists_of_misclaims hmis
    apply hnot
    apply hall
    rw [mem_output_iff_of_forall_prop_ne h hprop]
    exact ⟨member.2, hmem, Document.workingValue_of_ne_arr hmis.1⟩
  . intro hnone member hmem
    cases whitelists_or_misclaims h hmem with
    | inl hlist => exact hlist
    | inr hmis => exact absurd hmis.1 (hnone member hmis.2)

end

theorem output_whitelisted_items :
    ∃ validator out, ofSchema (.ofList [("n", .number {}), ("items.x", .integer {})]) =
      .ok validator ∧
      validator.validate (.obj [("items", .arr [.obj [("x", .str "3")]]), ("n", .ofNat 5),
        ("spare", .arr [.ofNat 1, .obj []])]) = .ok out ∧
      ∀ member ∈ out, validator.Whitelists member.1 member.2 := by
  have haccepted :
      validate ⟨[⟨⟨⟨"n", by decide⟩, none⟩, .number {}⟩,
          ⟨⟨⟨"items", by decide⟩, some ⟨"x", by decide⟩⟩, .integer {}⟩]⟩
        (.obj [("items", .arr [.obj [("x", .str "3")]]), ("n", .ofNat 5),
          ("spare", .arr [.ofNat 1, .obj []])]) =
        .ok [("items", .arr [.obj [("x", .ofNat 3)]]), ("n", .ofNat 5),
          ("spare", .arr [.null, .obj []])] := by
    decide +kernel
  refine ⟨_, _, by decide, haccepted, (output_whitelisted_iff haccepted).2.mpr ?_⟩
  rintro member hmem ⟨hvalue, field, hfield, hsub, htext⟩
  simp only [List.mem_cons, List.not_mem_nil, or_false] at hmem hfield
  obtain rfl | rfl | rfl := hmem
  . exact hvalue _ rfl
  . obtain rfl | rfl := hfield
    . simp at hsub
    . revert htext
      decide
  . exact hvalue _ rfl

theorem misclaimed_member_accepted :
    ∃ validator out, ofSchema (.ofList [("a.b", .integer {})]) = .ok validator ∧
      validator.validate (.obj [("a.b", .ofNat 5)]) = .ok out ∧
      ∃ member ∈ out, ¬ validator.Whitelists member.1 member.2 := by
  refine ⟨⟨[⟨⟨⟨"a", by decide⟩, some ⟨"b", by decide⟩⟩, .integer {}⟩]⟩,
    [("a.b", .ofNat 5), ("a", .arr [])], by decide, by decide, ("a.b", .ofNat 5), by simp, ?_⟩
  apply (not_whitelists_of_misclaims _).2
  refine ⟨fun elements h => ?_, _, List.mem_singleton_self _, rfl, by decide⟩
  cases h

end Validator

end Intake
