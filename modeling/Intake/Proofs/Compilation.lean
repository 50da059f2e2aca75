import Mathlib.Data.List.Nodup
import Intake.Proofs.FieldPath
import Intake.Proofs.Outcome
import Intake.Validator

namespace Intake

theorem Field.text_path_of_compile [Engine] {path : String} {definition : Definition}
    {field : Field}
    (h : Field.compile path definition = .ok field) : field.path.text = path := by
  unfold Field.compile at h
  simp only [Except.bind_eq_ok_iff, Except.pure_eq_ok_iff] at h
  obtain ⟨fieldPath, hparse, _, _, rfl⟩ := h
  exact FieldPath.text_of_parse hparse

namespace Validator

variable [Engine] {schema : Schema} {validator : Validator}

theorem paths_of_ofSchema (compiled : ofSchema schema = .ok validator) :
    validator.paths = schema.paths := by
  unfold ofSchema at compiled
  simp only [Except.bind_eq_ok_iff, Except.pure_eq_ok_iff, Except.mapM_eq_ok_iff] at compiled
  obtain ⟨fields, hfields, rfl⟩ := compiled
  unfold paths Schema.paths Entries.keys
  dsimp only
  generalize schema.entries = entries at hfields
  induction hfields with
  | nil => rfl
  | cons hfield _ ih =>
    rw [List.map_cons, List.map_cons, ih, Field.text_path_of_compile hfield]

theorem nodup_paths (compiled : ofSchema schema = .ok validator) : validator.paths.Nodup := by
  rw [paths_of_ofSchema compiled]
  exact schema.nodup

theorem nodup_fields (compiled : ofSchema schema = .ok validator) : validator.fields.Nodup :=
  (nodup_paths compiled).of_map

theorem field_eq_of_path_eq (compiled : ofSchema schema = .ok validator) {field other : Field}
    (hfield : field ∈ validator.fields) (hother : other ∈ validator.fields)
    (h : field.path = other.path) : field = other :=
  List.inj_on_of_nodup_map (nodup_paths compiled) hfield hother (congrArg FieldPath.text h)

theorem field_eq_of_prop_eq (compiled : ofSchema schema = .ok validator) {field other : Field}
    (hfield : field ∈ validator.fields) (hother : other ∈ validator.fields)
    (hfieldSub : field.path.sub? = none) (hotherSub : other.path.sub? = none)
    (h : field.path.prop.text = other.path.prop.text) : field = other := by
  apply field_eq_of_path_eq compiled hfield hother
  rw [← FieldPath.text_inj, FieldPath.text_eq_of_sub?_eq_none hfieldSub,
    FieldPath.text_eq_of_sub?_eq_none hotherSub, h]

end Validator

end Intake
