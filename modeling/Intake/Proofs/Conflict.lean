import Intake.Pattern.Engine
import Intake.Proofs.Cleaning
import Intake.Proofs.Compilation
import Intake.Proofs.Run

/-!
This module contains what a validator makes of a name that is declared both as a member and as an
array. No document satisfies both declarations, unless the member is left out before any field of
the array creates the array.
-/

namespace Intake

namespace Field

theorem elements?_of_isScalar {value : Json} (h : value.isScalar = true) :
    Document.elements? (some value) = none := by
  cases value with
  | arr | obj | null => simp [Json.isScalar] at h
  | _ => rfl

variable [Engine] {doc : Entries Json} {key : String} {cleaned : Option Json}

theorem sub?_ne_none_of_chain_arr {fields : List Field} {elements : List Json}
    (h : Update.chain (fields.map (·.update doc)) key (some (.arr elements)) = .ok cleaned) :
    ∀ field ∈ fields, field.path.prop.text = key → field.path.sub? ≠ none := by
  induction fields generalizing elements with
  | nil => simp
  | cons field fields ih =>
    by_cases hkey : field.path.prop.text = key
    . subst hkey
      obtain ⟨next, hnext, hrest⟩ := (chain_cons_self field fields _).mp h
      cases hsub : field.path.sub? with
      | none =>
        -- The field of a member cannot clean an array.
        rw [cleanSlot_eq_ok_iff_of_member hsub] at hnext
        exact absurd (Definition.isScalar_of_clean_some hnext) (by simp [Json.isScalar])
      | some sub =>
        -- A field of the array leaves an array to the fields after it.
        obtain ⟨_, results, _, _, rfl⟩ := (cleanSlot_eq_ok_iff_of_array hsub _ _).mp hnext
        intro other hother
        cases List.mem_cons.mp hother with
        | inl heq => simp [heq, hsub]
        | inr htail => exact ih hrest other htail
    . rw [chain_cons_of_ne hkey] at h
      intro other hother
      cases List.mem_cons.mp hother with
      | inl heq => exact fun hprop => absurd (heq ▸ hprop) hkey
      | inr htail => exact ih h other htail

theorem prop_ne_of_chain_isScalar {fields : List Field} {value : Json}
    (hscalar : value.isScalar = true)
    (hsubs : ∀ field ∈ fields, field.path.prop.text = key → field.path.sub? ≠ none)
    (h : Update.chain (fields.map (·.update doc)) key (some value) = .ok cleaned) :
    ∀ field ∈ fields, field.path.prop.text ≠ key := by
  induction fields with
  | nil => simp
  | cons field fields ih =>
    have hkey : field.path.prop.text ≠ key := by
      -- A field of the array would find the value, which is no array.
      rintro rfl
      obtain ⟨next, hnext, _⟩ := (chain_cons_self field fields _).mp h
      obtain ⟨sub, hsub⟩ := Option.ne_none_iff_exists'.mp (hsubs field List.mem_cons_self rfl)
      obtain ⟨given, _, hgiven, _⟩ := (cleanSlot_eq_ok_iff_of_array hsub _ _).mp hnext
      simp [elements?_of_isScalar hscalar] at hgiven
    rw [chain_cons_of_ne hkey] at h
    have ih := ih (fun other hother => hsubs other (List.mem_cons_of_mem _ hother)) h
    exact List.forall_mem_cons.mpr ⟨hkey, ih⟩

variable {fields before after : List Field} {field other : Field} {slot : Option Json}

theorem find?_prop_of_chain (hmem : field ∈ fields) (hsub : field.path.sub? = none)
    (hunique : ∀ other ∈ fields, other.path.sub? = none →
      other.path.prop.text = field.path.prop.text → other = field)
    (h : Update.chain (fields.map (·.update doc)) field.path.prop.text slot = .ok cleaned) :
    fields.find? (·.path.prop = field.path.prop) = some field := by
  induction fields with
  | nil => simp at hmem
  | cons head tail ih =>
    by_cases hkey : head.path.prop = field.path.prop
    . rw [List.find?_cons_of_pos (by simpa using hkey), Option.some.injEq]
      rw [← hkey] at h
      obtain ⟨next, hnext, hrest⟩ := (chain_cons_self head tail _).mp h
      cases hhead : head.path.sub? with
      | none => exact hunique head List.mem_cons_self hhead (congrArg Word.text hkey)
      | some sub =>
        -- The member would have to clean what a field of the array has left.
        obtain ⟨_, results, _, _, rfl⟩ := (cleanSlot_eq_ok_iff_of_array hhead _ _).mp hnext
        cases List.mem_cons.mp hmem with
        | inl heq => exact heq.symm
        | inr htail =>
          have hne := sub?_ne_none_of_chain_arr hrest field htail (congrArg Word.text hkey.symm)
          exact absurd hsub hne
    . have htail : field ∈ tail := by
        cases List.mem_cons.mp hmem with
        | inl heq => exact absurd (heq ▸ rfl) hkey
        | inr htail => exact htail
      rw [chain_cons_of_ne (mt Word.text_inj.mp hkey)] at h
      rw [List.find?_cons_of_neg (by simpa using hkey)]
      exact ih htail (fun other hother => hunique other (List.mem_cons_of_mem _ hother)) h

theorem exists_append_of_find? (nodup : fields.Nodup)
    (hunique : ∀ other ∈ fields, other.path.sub? = none →
      other.path.prop.text = field.path.prop.text → other = field)
    (hfirst : fields.find? (·.path.prop = field.path.prop) = some field) :
    ∃ before after, fields = before ++ field :: after ∧
      (∀ other ∈ before, other.path.prop.text ≠ field.path.prop.text) ∧
      ∀ other ∈ after, other.path.prop.text = field.path.prop.text → other.path.sub? ≠ none := by
  obtain ⟨_, before, after, rfl, hfind⟩ := List.find?_eq_some_iff_append.mp hfirst
  refine ⟨before, after, rfl, ?_, ?_⟩
  . intro other hother
    rw [ne_eq, Word.text_inj]
    simpa using hfind other hother
  . intro other hother hprop hnone
    have hsame := hunique other (by simp [hother]) hnone hprop
    rw [List.nodup_append, List.nodup_cons] at nodup
    exact nodup.2.1.1 (hsame ▸ hother)

theorem chain_append_cons_of_ne (h : field.path.prop.text ≠ key) :
    Update.chain ((before ++ field :: after).map (·.update doc)) key slot = .ok cleaned ↔
      Update.chain ((before ++ after).map (·.update doc)) key slot = .ok cleaned := by
  rw [List.map_append, List.map_append, Update.chain_append, Update.chain_append]
  simp only [chain_cons_of_ne h]

theorem chain_conflicting_iff (hsub : field.path.sub? = none)
    (hafter : ∀ other ∈ after, other.path.prop.text = field.path.prop.text →
      other.path.sub? ≠ none)
    (hother : other ∈ after) (hprop : other.path.prop.text = field.path.prop.text) :
    Update.chain ((field :: after).map (·.update doc)) field.path.prop.text slot = .ok cleaned ↔
      field.definition.Omits slot ∧
        Update.chain (after.map (·.update doc)) field.path.prop.text none = .ok cleaned := by
  rw [chain_cons_self]
  simp only [cleanSlot_eq_ok_iff_of_member hsub, ← Definition.clean_eq_none_iff]
  constructor
  . rintro ⟨next, hnext, hrest⟩
    cases next with
    | none => exact ⟨hnext, hrest⟩
    | some value =>
      -- The field of the array that comes later cannot do with the value.
      have hscalar := Definition.isScalar_of_clean_eq_some hnext
      exact absurd hprop (prop_ne_of_chain_isScalar hscalar hafter hrest other hother)
  . rintro ⟨hnone, hrest⟩
    exact ⟨none, hnone, hrest⟩

end Field

namespace Document

variable {doc : Entries Json} {word : Word}

theorem records_erase_iff (nodup : doc.keys.Nodup)
    (hslot : ∀ elements, doc.get? word.text ≠ some (.arr elements)) (recorded : String) :
    Records (doc.erase word.text) recorded ↔ Records doc recorded ∧ recorded ≠ word.text := by
  constructor
  . intro h
    cases h with
    | member hmem hvalue =>
      rw [Entries.mem_erase_iff nodup] at hmem
      exact ⟨Records.member hmem.2 hvalue, hmem.1⟩
    | element hmem helement hsub =>
      rw [Entries.mem_erase_iff nodup] at hmem
      refine ⟨Records.element hmem.2 helement hsub, ?_⟩
      -- The key of an element contains a point, which a word does not.
      intro heq
      apply word.dot_notMem
      simp [← heq, String.toList_append]
  . rintro ⟨h, hne⟩
    cases h with
    | member hmem hvalue =>
      exact Records.member ((Entries.mem_erase_iff nodup).mpr ⟨hne, hmem⟩) hvalue
    | element hmem helement hsub =>
      refine Records.element ((Entries.mem_erase_iff nodup).mpr ⟨?_, hmem⟩) helement hsub
      rintro rfl
      exact hslot _ ((Entries.get?_eq_some_iff nodup _ _).mpr hmem)

end Document

theorem Definition.omits_workingValue_iff [Engine] (definition : Definition) (slot : Option Json) :
    definition.Omits (slot.map Document.workingValue) ↔ definition.Omits slot := by
  rw [← clean_eq_none_iff, ← clean_eq_none_iff, clean_workingValue]

theorem Definition.Omits.ne_arr [Engine] {definition : Definition} {slot : Option Json}
    (h : definition.Omits slot) (elements : List Json) : slot ≠ some (.arr elements) := by
  obtain ⟨_, _, _, _, rfl | rfl⟩ := h <;> simp

namespace Validator

section

variable [Engine]

def without (validator : Validator) (field : Field) : Validator where
  fields := validator.fields.erase field

variable {schema : Schema} {validator : Validator} {field other : Field} {doc : Entries Json}

theorem mem_paths_without_iff (compiled : ofSchema schema = .ok validator)
    (hfield : field ∈ validator.fields) (path : String) :
    path ∈ (validator.without field).paths ↔ path ∈ validator.paths ∧ path ≠ field.path.text := by
  simp only [paths, without, List.mem_map, (nodup_fields compiled).mem_erase_iff]
  constructor
  . rintro ⟨other, ⟨hne, hother⟩, rfl⟩
    refine ⟨⟨other, hother, rfl⟩, ?_⟩
    intro heq
    exact hne (field_eq_of_path_eq compiled hother hfield (FieldPath.text_inj.mp heq))
  . rintro ⟨⟨other, hother, rfl⟩, hne⟩
    exact ⟨other, ⟨fun heq => hne (heq ▸ rfl), hother⟩, rfl⟩

theorem exists_fields_eq_append (compiled : ofSchema schema = .ok validator)
    (hsub : field.path.sub? = none) (hother : other ∈ validator.fields)
    (harray : other.path.sub?.isSome = true) (hprop : other.path.prop = field.path.prop)
    (hfirst : validator.fields.find? (·.path.prop = field.path.prop) = some field) :
    ∃ before after, validator.fields = before ++ field :: after ∧
      (validator.without field).fields = before ++ after ∧
      (∀ f ∈ before, f.path.prop.text ≠ field.path.prop.text) ∧
      (∀ f ∈ after, f.path.prop.text = field.path.prop.text → f.path.sub? ≠ none) ∧
      other ∈ after := by
  have hunique : ∀ f ∈ validator.fields, f.path.sub? = none →
      f.path.prop.text = field.path.prop.text → f = field := by
    intro f hf hnone htext
    exact field_eq_of_prop_eq compiled hf (List.mem_of_find?_eq_some hfirst) hnone hsub htext
  obtain ⟨before, after, hfields, hbefore, hafter⟩ :=
    Field.exists_append_of_find? (nodup_fields compiled) hunique hfirst
  refine ⟨before, after, hfields, ?_, hbefore, hafter, ?_⟩
  . have hnot : field ∉ before := fun h => hbefore field h rfl
    rw [without, hfields, List.erase_append_right _ hnot, List.erase_cons_head]
  . rw [hfields, List.mem_append, List.mem_cons] at hother
    obtain h | rfl | h := hother
    . exact absurd (congrArg Word.text hprop) (hbefore other h)
    . simp [hsub] at harray
    . exact h

theorem slot_without_of_ne {before after : List Field} {key : String}
    (hfields : validator.fields = before ++ field :: after)
    (hwithout : (validator.without field).fields = before ++ after)
    (hkey : field.path.prop.text ≠ key) (cleaned : Option Json) :
    (validator.without field).slot (doc.erase field.path.prop.text) key = .ok cleaned ↔
      validator.slot doc key = .ok cleaned := by
  unfold slot updates
  rw [Entries.get?_erase_of_ne doc hkey, hwithout, hfields, Field.chain_append_cons_of_ne hkey]
  apply Field.chain_eq_ok_iff_of_doc

theorem forall_slot_iff_of_find? (compiled : ofSchema schema = .ok validator)
    (hsub : field.path.sub? = none) (hother : other ∈ validator.fields)
    (harray : other.path.sub?.isSome = true) (hprop : other.path.prop = field.path.prop)
    (hfirst : validator.fields.find? (·.path.prop = field.path.prop) = some field)
    (nodup : doc.keys.Nodup) :
    (∀ key, ∃ cleaned, validator.slot doc key = .ok cleaned) ↔
      field.definition.Omits (doc.get? field.path.prop.text) ∧
        ∀ key, ∃ cleaned,
          (validator.without field).slot (doc.erase field.path.prop.text) key = .ok cleaned := by
  obtain ⟨before, after, hfields, hwithout, hbefore, hafter, hmem⟩ :=
    exists_fields_eq_append compiled hsub hother harray hprop hfirst
  -- At the name itself, the member has to leave nothing to the fields of the array.
  have hself : ∀ cleaned, validator.slot doc field.path.prop.text = .ok cleaned ↔
      field.definition.Omits (doc.get? field.path.prop.text) ∧
        (validator.without field).slot (doc.erase field.path.prop.text) field.path.prop.text =
          .ok cleaned := by
    intro cleaned
    unfold slot updates
    rw [Entries.get?_erase_self nodup, hwithout, hfields, Option.map_none,
      Field.chain_append_of_forall_prop_ne hbefore, Field.chain_append_of_forall_prop_ne hbefore,
      Field.chain_conflicting_iff hsub hafter hmem (congrArg Word.text hprop),
      Definition.omits_workingValue_iff,
      Field.chain_eq_ok_iff_of_doc doc (doc.erase field.path.prop.text)]
  constructor
  . intro h
    obtain ⟨_, hcleaned⟩ := h field.path.prop.text
    refine ⟨((hself _).mp hcleaned).1, ?_⟩
    intro key
    obtain ⟨cleaned, hcleaned⟩ := h key
    by_cases hkey : field.path.prop.text = key
    . exact ⟨cleaned, hkey ▸ ((hself cleaned).mp (hkey ▸ hcleaned)).2⟩
    . exact ⟨cleaned, (slot_without_of_ne hfields hwithout hkey cleaned).mpr hcleaned⟩
  . rintro ⟨homits, h⟩ key
    obtain ⟨cleaned, hcleaned⟩ := h key
    by_cases hkey : field.path.prop.text = key
    . exact ⟨cleaned, hkey ▸ (hself cleaned).mpr ⟨homits, hkey ▸ hcleaned⟩⟩
    . exact ⟨cleaned, (slot_without_of_ne hfields hwithout hkey cleaned).mp hcleaned⟩

theorem forall_records_iff (compiled : ofSchema schema = .ok validator)
    (hfield : field ∈ validator.fields) (hsub : field.path.sub? = none) (nodup : doc.keys.Nodup)
    (homits : field.definition.Omits (doc.get? field.path.prop.text)) :
    (∀ key, Document.Records (doc.erase field.path.prop.text) key →
        key ∈ (validator.without field).paths) ↔
      ∀ key, Document.Records doc key → key ∈ validator.paths := by
  simp only [Document.records_erase_iff nodup homits.ne_arr, mem_paths_without_iff compiled hfield,
    FieldPath.text_eq_of_sub?_eq_none hsub]
  constructor
  . intro h key hkey
    by_cases heq : key = field.path.prop.text
    . subst heq
      rw [← FieldPath.text_eq_of_sub?_eq_none hsub]
      exact List.mem_map_of_mem hfield
    . exact (h key ⟨hkey, heq⟩).1
  . intro h key hkey
    exact ⟨h key hkey.1, hkey.2⟩

theorem accepts_obj_iff (validator : Validator) (nodup : doc.keys.Nodup) :
    validator.accepts (.obj doc) = true ↔
      (∀ key, ∃ cleaned, validator.slot doc key = .ok cleaned) ∧
        ∀ key, Document.Records doc key → key ∈ validator.paths := by
  rw [accepts, Except.isOk_iff, validate_obj, exists_validateObject_iff validator nodup]

theorem accepts_conflicting_iff (compiled : ofSchema schema = .ok validator)
    (hfield : field ∈ validator.fields) (hsub : field.path.sub? = none)
    (hother : other ∈ validator.fields) (harray : other.path.sub?.isSome = true)
    (hprop : other.path.prop = field.path.prop) (nodup : doc.keys.Nodup) :
    validator.accepts (.obj doc) = true ↔
      validator.fields.find? (·.path.prop = field.path.prop) = some field ∧
      field.definition.Omits (doc.get? field.path.text) ∧
      (validator.without field).accepts (.obj (doc.erase field.path.text)) = true := by
  have herase := Entries.nodup_keys_erase nodup field.path.prop.text
  rw [FieldPath.text_eq_of_sub?_eq_none hsub, accepts_obj_iff _ nodup, accepts_obj_iff _ herase]
  constructor
  . rintro ⟨hslot, hkeys⟩
    obtain ⟨cleaned, hcleaned⟩ := hslot field.path.prop.text
    have hfirst : validator.fields.find? (·.path.prop = field.path.prop) = some field := by
      apply Field.find?_prop_of_chain hfield hsub _ hcleaned
      intro f hf hnone htext
      exact field_eq_of_prop_eq compiled hf hfield hnone hsub htext
    rw [forall_slot_iff_of_find? compiled hsub hother harray hprop hfirst nodup] at hslot
    rw [← forall_records_iff compiled hfield hsub nodup hslot.1] at hkeys
    exact ⟨hfirst, hslot.1, hslot.2, hkeys⟩
  . rintro ⟨hfirst, homits, hslot, hkeys⟩
    rw [forall_slot_iff_of_find? compiled hsub hother harray hprop hfirst nodup]
    rw [forall_records_iff compiled hfield hsub nodup homits] at hkeys
    exact ⟨⟨homits, hslot⟩, hkeys⟩

end

theorem rejects_array_before_member :
    ∃ validator, ofSchema (.ofList [("p.s", .integer {}), ("p", .string ⟨none, true⟩)]) =
      .ok validator ∧ validator.accepts (.obj [("p", .str "")]) ≠ true := by
  have hcompiled : ofSchema (.ofList [("p.s", .integer {}), ("p", .string ⟨none, true⟩)]) =
      .ok ⟨[⟨⟨⟨"p", by decide⟩, some ⟨"s", by decide⟩⟩, .integer {}⟩,
        ⟨⟨⟨"p", by decide⟩, none⟩, .string ⟨none, true⟩⟩]⟩ := by
    decide
  refine ⟨_, hcompiled, ?_⟩
  rw [ne_eq, accepts_conflicting_iff hcompiled (List.mem_cons_of_mem _ List.mem_cons_self) rfl
    List.mem_cons_self rfl rfl (by decide)]
  rintro ⟨hfirst, _⟩
  simp at hfirst

theorem empty_member_before_array_accepted :
    ∃ validator, ofSchema (.ofList [("p", .string ⟨none, true⟩), ("p.s", .integer {})]) =
      .ok validator ∧
      validator.validate (.obj [("p", .str "")]) = .ok [("p", .arr [])] := by
  refine ⟨⟨[⟨⟨⟨"p", by decide⟩, none⟩, .string ⟨none, true⟩⟩,
    ⟨⟨⟨"p", by decide⟩, some ⟨"s", by decide⟩⟩, .integer {}⟩]⟩, by decide, by decide⟩

end Validator

end Intake
