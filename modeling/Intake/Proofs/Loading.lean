import Intake.Proofs.Declaration
import Intake.Proofs.Entries
import Intake.Proofs.Magnitude

namespace Intake

namespace Definition

variable [Engine]

def bounds : Definition → Bounds
  | number bounds => bounds
  | integer bounds => bounds
  | _ => {}

def HasFiniteBounds (definition : Definition) : Prop :=
  ∀ limit bound, definition.bounds.get limit = some bound → bound.isFinite = true

end Definition

namespace Declaration

variable {declaration next : Declaration} {setting : Setting} {value : Json}

def HasFiniteBounds (declaration : Declaration) : Prop :=
  ∀ limit bound, declaration.bounds.get limit = some bound → bound.isFinite = true

theorem HasFiniteBounds.set (h : declaration.HasFiniteBounds)
    (hset : declaration.set setting value = .ok next) : next.HasFiniteBounds := by
  unfold Declaration.set at hset
  split at hset
  case h_8 limit number =>
    rw [Except.ok.injEq] at hset
    subst hset
    intro other bound hbound
    by_cases heq : limit = other
    . rw [heq, Bounds.get_set_self, Option.some.injEq] at hbound
      exact hbound ▸ number.isFinite_toDouble
    . rw [Bounds.get_set_of_ne _ heq] at hbound
      exact h other bound hbound
  all_goals
    cases hset <;> exact h

theorem HasFiniteBounds.setMember {name : String} (h : declaration.HasFiniteBounds)
    (hset : declaration.setMember name value = .ok next) : next.HasFiniteBounds := by
  unfold Declaration.setMember at hset
  split at hset
  . exact h.set hset
  . simp at hset

theorem hasFiniteBounds_empty : HasFiniteBounds {} := by
  intro limit bound hbound
  cases limit <;> simp [Bounds.get] at hbound

theorem hasFiniteBounds_of_ofJson (h : ofJson value = .ok declaration) :
    declaration.HasFiniteBounds := by
  unfold ofJson at h
  split at h
  . exact Except.foldlM_induction (fun _ _ _ h hset => h.setMember hset) hasFiniteBounds_empty h
  . unfold ofElements at h
    obtain ⟨read, hread, h⟩ := (Except.bind_eq_ok_iff _ _ _).mp h
    have hfinite : read.HasFiniteBounds :=
      Except.foldlM_induction (fun _ _ _ h hset => h.set hset) hasFiniteBounds_empty hread
    split at h
    . simp at h
    . split at h
      . simp at h
      . exact Except.ok.inj h ▸ hfinite
  . simp at h

variable [Engine]

theorem HasFiniteBounds.build {type : FieldType} {definition : Definition}
    (h : declaration.HasFiniteBounds) (hbuild : declaration.build type = .ok definition) :
    definition.HasFiniteBounds := by
  cases type with
  | string =>
    rw [build_string_eq_map, Except.map_eq_ok_iff] at hbuild
    obtain ⟨rule, _, rfl⟩ := hbuild
    exact hasFiniteBounds_empty
  | number =>
    obtain rfl := Except.ok.inj hbuild
    unfold Definition.HasFiniteBounds Definition.bounds
    rw [Bounds.assemble_eq]
    exact h
  | integer =>
    obtain rfl := Except.ok.inj hbuild
    unfold Definition.HasFiniteBounds Definition.bounds
    rw [Bounds.assemble_eq]
    exact h
  | boolean =>
    obtain rfl := Except.ok.inj hbuild
    exact hasFiniteBounds_empty

theorem HasFiniteBounds.define {definition : Definition} (h : declaration.HasFiniteBounds)
    (hdefine : declaration.define = .ok definition) : definition.HasFiniteBounds := by
  unfold Declaration.define at hdefine
  split at hdefine
  . simp at hdefine
  . split at hdefine
    . simp at hdefine
    . split at hdefine
      . simp at hdefine
      . exact h.build hdefine

end Declaration

theorem Definition.hasFiniteBounds_of_ofJson [Engine] {value : Json} {definition : Definition}
    (h : ofJson value = .ok definition) : definition.HasFiniteBounds := by
  unfold ofJson at h
  split at h
  . next hdeclaration => exact (Declaration.hasFiniteBounds_of_ofJson hdeclaration).define h
  . simp at h

namespace Schema

variable [Engine] {schema : Schema} {members : Entries Json} {rejection : Rejection}

inductive Loaded (schema : Schema) : Prop where
  | json {value : Json} (h : ofJson value = .ok schema)
  | source {α : Type} {read : α → Except String Json} {source : α}
      (h : ofSource read source = .ok schema)
  | file {read : String → Except String Json} {name : String} {content : Except String String}
      (h : ofFile read name content = .ok schema)

theorem exists_ofJson_of_ofSource {α : Type} {read : α → Except String Json} {source : α}
    (h : ofSource read source = .ok schema) : ∃ value, ofJson value = .ok schema := by
  unfold ofSource at h
  split at h
  . exact ⟨_, h⟩
  . simp at h

theorem Loaded.exists_ofJson (h : schema.Loaded) : ∃ value, ofJson value = .ok schema := by
  cases h with
  | json h => exact ⟨_, h⟩
  | source h => exact exists_ofJson_of_ofSource h
  | file h =>
    unfold ofFile at h
    split at h
    . exact exists_ofJson_of_ofSource h
    . simp at h

theorem Loaded.hasFiniteBounds (h : schema.Loaded) :
    ∀ entry ∈ schema.entries, entry.2.HasFiniteBounds := by
  obtain ⟨value, h⟩ := h.exists_ofJson
  unfold ofJson at h
  split at h
  . refine Except.foldlM_induction
      (p := fun schema => ∀ entry ∈ schema.entries, entry.2.HasFiniteBounds) ?_ (by simp [empty]) h
    rintro before ⟨path, value⟩ after hbefore hstep
    simp only [Except.bind_eq_ok_iff, Except.pure_eq_ok_iff, Except.mapError_eq_ok_iff] at hstep
    obtain ⟨definition, hdefinition, rfl⟩ := hstep
    intro entry hmem
    obtain hmem | rfl := Entries.mem_of_mem_insert hmem
    . exact hbefore entry hmem
    . exact Definition.hasFiniteBounds_of_ofJson hdefinition
  . simp at h

theorem exists_declare_iff (schema : Schema) (member : String × Json) :
    (∃ next, (do
      let definition ← (Definition.ofJson member.2).mapError (·.locate [.field member.1])
      return schema.insert member.1 definition : Except Rejection Schema) = .ok next) ↔
      ∃ definition, Definition.ofJson member.2 = .ok definition := by
  simp only [Except.bind_eq_ok_iff, Except.mapError_eq_ok_iff, Except.pure_eq_ok_iff]
  constructor
  . rintro ⟨_, definition, hdefinition, _⟩
    exact ⟨definition, hdefinition⟩
  . rintro ⟨definition, hdefinition⟩
    exact ⟨_, definition, hdefinition, rfl⟩

theorem ofJson_obj_eq_error_iff :
    ofJson (.obj members) = .error rejection ↔ ∃ before path value after fault,
      members = before ++ (path, value) :: after ∧
        (∀ member ∈ before, ∃ definition, Definition.ofJson member.2 = .ok definition) ∧
        Definition.ofJson value = .error fault ∧ fault.locate [.field path] = rejection := by
  unfold ofJson ofMembers
  dsimp only
  rw [Except.foldlM_eq_error_iff]
  constructor
  . rintro ⟨before, ⟨path, value⟩, after, mid, rfl, hbefore, herror⟩
    have hdefined := (Except.exists_foldlM_iff exists_declare_iff before empty).mp ⟨mid, hbefore⟩
    simp only [Except.bind_eq_error_iff, Except.mapError_eq_error_iff] at herror
    obtain ⟨fault, hfault, hlocate⟩ | ⟨_, _, hpure⟩ := herror
    . exact ⟨before, path, value, after, fault, rfl, hdefined, hfault, hlocate⟩
    . simp [pure, Except.pure] at hpure
  . rintro ⟨before, path, value, after, fault, rfl, hdefined, hfault, rfl⟩
    obtain ⟨mid, hbefore⟩ := (Except.exists_foldlM_iff exists_declare_iff before empty).mpr hdefined
    refine ⟨before, (path, value), after, mid, rfl, hbefore, ?_⟩
    dsimp only
    rw [hfault]
    rfl

end Schema

end Intake
