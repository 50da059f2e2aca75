import Intake.Pattern.Engine
import Intake.Proofs.Compilation
import Intake.Proofs.FirstBound
import Intake.Proofs.Loading

namespace Intake

namespace Definition

variable [Engine]

theorem checkBounds_eq (definition : Definition) :
    definition.checkBounds = definition.bounds.checkFinite := by
  cases definition <;> rfl

theorem checkBounds_eq_ok_iff (definition : Definition) :
    definition.checkBounds = .ok () ↔ definition.HasFiniteBounds := by
  rw [checkBounds_eq, Bounds.checkFinite_eq_ok_iff]
  rfl

end Definition

namespace FieldPath

theorem parse_eq_error_iff {path : String} {rejection : Rejection} :
    parse path = .error rejection ↔
      ¬ IsPath path ∧ .of (.malformedPath path) none = rejection := by
  rw [← exists_parse_iff]
  unfold parse
  split <;> simp

end FieldPath

namespace Field

variable [Engine] {path : String} {definition : Definition} {rejection : Rejection}

structure Sound (path : String) (definition : Definition) : Prop where
  isPath : IsPath path
  hasFiniteBounds : definition.HasFiniteBounds

inductive Unsound (path : String) (definition : Definition) : Rejection → Prop where
  | path (h : ¬ IsPath path) : Unsound path definition (.of (.malformedPath path) none)
  | bound {limit : Limit} {bound : Double} (isPath : IsPath path)
      (first : definition.bounds.First (fun _ bound => bound.isFinite = false) limit bound) :
      Unsound path definition
        ((Rejection.of (.notFiniteBound limit bound) none).locate [.field path])

theorem compile_eq_ok_iff {field : Field} :
    compile path definition = .ok field ↔
      field.path.text = path ∧ definition.HasFiniteBounds ∧ field.definition = definition := by
  unfold compile
  simp only [Except.bind_eq_ok_iff, Except.pure_eq_ok_iff, Except.mapError_eq_ok_iff,
    FieldPath.parse_eq_ok_iff, ← Definition.checkBounds_eq_ok_iff]
  constructor
  . rintro ⟨_, htext, ⟨⟩, hcheck, rfl⟩
    exact ⟨htext, hcheck, rfl⟩
  . rintro ⟨htext, hcheck, rfl⟩
    exact ⟨field.path, htext, (), hcheck, rfl⟩

theorem exists_compile_iff :
    (∃ field, compile path definition = .ok field) ↔ Sound path definition := by
  simp only [compile_eq_ok_iff]
  constructor
  . rintro ⟨field, rfl, hfinite, _⟩
    exact ⟨field.path.isPath_text, hfinite⟩
  . rintro ⟨isPath, hfinite⟩
    obtain ⟨fieldPath, htext⟩ := (FieldPath.exists_text_eq_iff path).mpr isPath
    exact ⟨⟨fieldPath, definition⟩, htext, hfinite, rfl⟩

theorem compile_eq_error_iff :
    compile path definition = .error rejection ↔ Unsound path definition rejection := by
  unfold compile
  simp only [Except.bind_eq_error_iff, Except.mapError_eq_error_iff,
    FieldPath.parse_eq_error_iff,
    Definition.checkBounds_eq, Bounds.checkFinite_eq_error_iff]
  constructor
  . rintro (⟨hpath, rfl⟩ | ⟨fieldPath, hparse, ⟨_, ⟨_, _, hfirst, rfl⟩, rfl⟩ | ⟨_, _, hpure⟩⟩)
    . exact .path hpath
    . exact .bound ((FieldPath.exists_parse_iff path).mp ⟨fieldPath, hparse⟩) hfirst
    . simp [pure, Except.pure] at hpure
  . intro h
    cases h with
    | path hpath => exact Or.inl ⟨hpath, rfl⟩
    | bound isPath hfirst =>
      obtain ⟨fieldPath, hparse⟩ := (FieldPath.exists_parse_iff path).mpr isPath
      exact Or.inr ⟨fieldPath, hparse, Or.inl ⟨_, ⟨_, _, hfirst, rfl⟩, rfl⟩⟩

theorem Unsound.kind (h : Unsound path definition rejection) : rejection.kind = .schema := by
  cases h <;> rfl

theorem Unsound.of_not_isPath (h : Unsound path definition rejection) (hpath : ¬ IsPath path) :
    rejection.message = "invalid property name: " ++ path ∧ rejection.path = [] := by
  cases h with
  | path _ => exact ⟨rfl, rfl⟩
  | bound isPath _ => exact absurd isPath hpath

theorem Unsound.path_of_isPath (h : Unsound path definition rejection) (isPath : IsPath path) :
    rejection.path = [.field path] := by
  cases h with
  | path hpath => exact absurd isPath hpath
  | bound _ _ => rfl

end Field

namespace Validator

section

variable [Engine] {schema : Schema} {validator : Validator} {rejection : Rejection}

theorem forall₂_of_ofSchema (compiled : ofSchema schema = .ok validator) :
    List.Forall₂ (fun entry field => Field.compile entry.1 entry.2 = .ok field) schema.entries
      validator.fields := by
  unfold ofSchema at compiled
  simp only [Except.bind_eq_ok_iff, Except.pure_eq_ok_iff, Except.mapM_eq_ok_iff] at compiled
  obtain ⟨fields, hfields, rfl⟩ := compiled
  exact hfields

theorem exists_ofSchema_iff :
    (∃ validator, ofSchema schema = .ok validator) ↔
      ∀ entry ∈ schema.entries, Field.Sound entry.1 entry.2 := by
  simp only [← Field.exists_compile_iff, ← List.exists_forall₂_iff]
  unfold ofSchema
  simp only [Except.bind_eq_ok_iff, Except.pure_eq_ok_iff, Except.mapM_eq_ok_iff]
  constructor
  . rintro ⟨_, fields, hfields, _⟩
    exact ⟨fields, hfields⟩
  . rintro ⟨fields, hfields⟩
    exact ⟨⟨fields⟩, fields, hfields, rfl⟩

theorem ofSchema_eq_error_iff :
    ofSchema schema = .error rejection ↔ ∃ before path definition after,
      schema.entries = before ++ (path, definition) :: after ∧
        (∀ entry ∈ before, Field.Sound entry.1 entry.2) ∧
          Field.Unsound path definition rejection := by
  unfold ofSchema
  simp only [Except.bind_eq_error_iff, Except.mapM_eq_error_iff, Field.exists_compile_iff,
    Field.compile_eq_error_iff]
  constructor
  . rintro (⟨before, ⟨path, definition⟩, after, hentries, hbefore, hunsound⟩ | ⟨_, _, hpure⟩)
    . exact ⟨before, path, definition, after, hentries, hbefore, hunsound⟩
    . simp [pure, Except.pure] at hpure
  . rintro ⟨before, path, definition, after, hentries, hbefore, hunsound⟩
    exact Or.inl ⟨before, (path, definition), after, hentries, hbefore, hunsound⟩

theorem malformedPath_of_loaded (loaded : schema.Loaded) (h : ofSchema schema = .error rejection) :
    ∃ path ∈ schema.paths, ¬ IsPath path ∧ rejection = .of (.malformedPath path) none := by
  obtain ⟨before, path, definition, after, hentries, _, hunsound⟩ := ofSchema_eq_error_iff.mp h
  have hmem : (path, definition) ∈ schema.entries := by
    rw [hentries]
    exact List.mem_append_right before List.mem_cons_self
  cases hunsound with
  | path hpath => exact ⟨path, (Entries.mem_keys_iff _ _).mpr ⟨definition, hmem⟩, hpath, rfl⟩
  | bound _ hfirst =>
    -- The bounds are JSON numbers.
    have hfinite := loaded.hasFiniteBounds _ hmem _ _ hfirst.configured
    rw [hfirst.holds] at hfinite
    contradiction

/--
A schema compiles if and only if all its entries are sound, and its fields are then the entries in
their order. Otherwise the first entry that is not sound is reported. If a schema is to be loaded
from an object, then the first bad definition is reported before any path is looked at, and the
bounds of a schema that has been loaded are not at fault.
-/
theorem compiles_or_first_fault (schema : Schema) :
    ((∃ validator, ofSchema schema = .ok validator) ↔
      ∀ entry ∈ schema.entries, Field.Sound entry.1 entry.2) ∧
    (∀ validator, ofSchema schema = .ok validator → validator.paths = schema.paths ∧
      List.Forall₂ (fun entry field => FieldPath.parse entry.1 = .ok field.path ∧
        field.path.text = entry.1 ∧ field.definition = entry.2) schema.entries validator.fields) ∧
    (∀ rejection, ofSchema schema = .error rejection ↔ ∃ before path definition after,
      schema.entries = before ++ (path, definition) :: after ∧
        (∀ entry ∈ before, Field.Sound entry.1 entry.2) ∧
        Field.Unsound path definition rejection ∧ rejection.kind = .schema ∧
        (¬ IsPath path → rejection.message = "invalid property name: " ++ path ∧
          rejection.path = []) ∧
        (IsPath path → rejection.path = [.field path])) ∧
    (∀ members rejection, Schema.ofJson (.obj members) = .error rejection ↔
      ∃ before path value after fault, members = before ++ (path, value) :: after ∧
        (∀ member ∈ before, ∃ definition, Definition.ofJson member.2 = .ok definition) ∧
        Definition.ofJson value = .error fault ∧ fault.locate [.field path] = rejection) ∧
    (∀ members rejection, Schema.ofJson (.obj members) = .error rejection →
      (Schema.ofJson (.obj members) >>= ofSchema) = .error rejection) ∧
    (schema.Loaded → ∀ rejection, ofSchema schema = .error rejection →
      ∃ path ∈ schema.paths, ¬ IsPath path ∧ rejection = .of (.malformedPath path) none) := by
  refine ⟨exists_ofSchema_iff, ?_, ?_, fun _ _ => Schema.ofJson_obj_eq_error_iff, ?_,
    fun loaded _ => malformedPath_of_loaded loaded⟩
  . intro validator compiled
    refine ⟨paths_of_ofSchema compiled, (forall₂_of_ofSchema compiled).imp ?_⟩
    intro entry field hcompile
    obtain ⟨htext, _, hdefinition⟩ := Field.compile_eq_ok_iff.mp hcompile
    exact ⟨(FieldPath.parse_eq_ok_iff _ _).mpr htext, htext, hdefinition⟩
  . intro rejection
    rw [ofSchema_eq_error_iff]
    constructor
    . rintro ⟨before, path, definition, after, hentries, hbefore, hunsound⟩
      exact ⟨before, path, definition, after, hentries, hbefore, hunsound, hunsound.kind,
        hunsound.of_not_isPath, hunsound.path_of_isPath⟩
    . rintro ⟨before, path, definition, after, hentries, hbefore, hunsound, _⟩
      exact ⟨before, path, definition, after, hentries, hbefore, hunsound⟩
  . intro members rejection h
    rw [h]
    rfl

end

theorem infinite_bound_first :
    ofSchema (.ofList [("n", .number {}),
        ("items.s", .integer { gte := some (.infinite false), lt := some .nan }),
        ("a-b", .string {})]) =
      .error ((Rejection.of (.notFiniteBound .gte (.infinite false)) none).locate
        [.field "items.s"]) := by
  have isPath : IsPath "n" := (FieldPath.exists_text_eq_iff "n").mp ⟨⟨⟨"n", by decide⟩, none⟩, rfl⟩
  have isPath' : IsPath "items.s" := (FieldPath.exists_text_eq_iff "items.s").mp
    ⟨⟨⟨"items", by decide⟩, some ⟨"s", by decide⟩⟩, rfl⟩
  have hbefore : ∀ entry ∈ [("n", Definition.number {})], Field.Sound entry.1 entry.2 := by
    rw [List.forall_mem_singleton]
    exact ⟨isPath, Declaration.hasFiniteBounds_empty⟩
  refine ((compiles_or_first_fault _).2.2.1 _).mpr ⟨_, _, _, _, rfl, hbefore, ?_, rfl, ?_, ?_⟩
  . refine .bound isPath' ⟨rfl, rfl, [.gt], [.lt, .lte], rfl, ?_⟩
    simp [Definition.bounds, Bounds.get]
  . exact fun hpath => absurd isPath' hpath
  . exact fun _ => rfl

end Validator

end Intake
