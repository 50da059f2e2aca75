import Intake.Pattern.Engine
import Intake.Proofs.Cleaning
import Intake.Proofs.Elements
import Intake.Proofs.WellFormed

/-!
This module contains what validation means field by field. If no name is both a member and an array,
the run over the working copy accepts the documents that each field accepts by itself, and makes of
them what each field makes of its own place.
-/

namespace Intake

namespace Validator

variable [Engine]

def ConflictFree (validator : Validator) : Prop :=
  ∀ field ∈ validator.fields, ∀ other ∈ validator.fields,
    field.path.sub? = none → other.path.sub?.isSome = true → field.path.prop ≠ other.path.prop

instance (validator : Validator) : Decidable validator.ConflictFree :=
  inferInstanceAs (Decidable (∀ field ∈ validator.fields, ∀ other ∈ validator.fields,
    field.path.sub? = none → other.path.sub?.isSome = true → field.path.prop ≠ other.path.prop))

structure Admits (validator : Validator) (doc : Entries Json) : Prop where
  members : ∀ field ∈ validator.fields, field.path.sub? = none →
    ∃ cleaned, field.definition.clean (doc.get? field.path.prop.text) = .ok cleaned
  elements : ∀ field ∈ validator.fields, ∀ sub, field.path.sub? = some sub →
    ∃ given, Document.elements? (doc.get? field.path.prop.text) = some given ∧
      ∀ element ∈ given, ∃ members, element = .obj members ∧
        ∃ cleaned, field.definition.clean (Entries.get? members sub.text) = .ok cleaned
  keys : ∀ key, Document.Records doc key → key ∈ validator.paths

def CleansElement (validator : Validator) (key : String) (given cleaned : Json) : Prop :=
  ∃ members results, given = .obj members ∧ cleaned = .obj results ∧
    (Entries.keys results).Nodup ∧
    (∀ field ∈ validator.fields, field.path.prop.text = key → ∀ sub, field.path.sub? = some sub →
      field.definition.clean (Entries.get? members sub.text) =
        .ok (Entries.get? results sub.text)) ∧
    ∀ subkey, key ++ "." ++ subkey ∉ validator.paths →
      Entries.get? results subkey = Entries.get? members subkey

/--
A document and what becomes of it: every field has cleaned its place, and the other members are the
same up to elements that are no objects.
-/
structure Cleans (validator : Validator) (doc out : Entries Json) : Prop where
  nodup : out.keys.Nodup
  members : ∀ field ∈ validator.fields, field.path.sub? = none →
    field.definition.clean (doc.get? field.path.prop.text) =
      .ok (out.get? field.path.prop.text)
  elements : ∀ field ∈ validator.fields, field.path.sub?.isSome = true →
    ∃ given results, Document.elements? (doc.get? field.path.prop.text) = some given ∧
      List.Forall₂ (validator.CleansElement field.path.prop.text) given results ∧
        out.get? field.path.prop.text = some (.arr results)
  rest : ∀ key, (∀ field ∈ validator.fields, field.path.prop.text ≠ key) →
    out.get? key = (doc.get? key).map Document.workingValue

end Validator

namespace Document

theorem workingElement_eq_obj_iff (element : Json) (members : List (String × Json)) :
    workingElement element = .obj members ↔ element = .obj members := by
  cases element <;> simp [workingElement]

theorem elements?_workingValue (slot : Option Json) :
    elements? (slot.map workingValue) = (elements? slot).map (·.map workingElement) := by
  cases slot with
  | none => rfl
  | some value => cases value <;> rfl

theorem nodup_of_elements? {doc : Entries Json} {key : String}
    (wellFormed : Json.WellFormed (.obj doc)) {given : List Json}
    (hgiven : elements? (doc.get? key) = some given) {members : List (String × Json)}
    (hmem : .obj members ∈ given) : (Entries.keys members).Nodup := by
  unfold elements? at hgiven
  split at hgiven
  . next elements heq =>
    rw [Option.some.injEq] at hgiven
    subst hgiven
    have helements := wellFormed.of_mem_obj (Entries.mem_of_get?_eq_some heq)
    exact (helements.of_mem_arr hmem).nodup
  . simp at hgiven
  . rw [Option.some.injEq] at hgiven
    simp [← hgiven] at hmem

end Document

namespace Validator

section

variable [Engine] {schema : Schema} {validator : Validator} {field : Field} {doc out : Entries Json}
  {key : String}

theorem slot_of_forall_prop_ne (hprop : ∀ field ∈ validator.fields, field.path.prop.text ≠ key) :
    validator.slot doc key = .ok ((doc.get? key).map Document.workingValue) :=
  Field.chain_of_forall_prop_ne hprop _

theorem slot_of_member (compiled : ofSchema schema = .ok validator)
    (conflictFree : validator.ConflictFree) (hfield : field ∈ validator.fields)
    (hsub : field.path.sub? = none) (cleaned : Option Json) :
    validator.slot doc field.path.prop.text = .ok cleaned ↔
      field.definition.clean (doc.get? field.path.prop.text) = .ok cleaned := by
  have hunique : ∀ other ∈ validator.fields, other.path.prop.text = field.path.prop.text →
      other = field := by
    intro other hother hprop
    cases hotherSub : other.path.sub? with
    | none => exact field_eq_of_prop_eq compiled hother hfield hotherSub hsub hprop
    | some sub =>
      have hne := conflictFree field hfield other hother hsub (by simp [hotherSub])
      exact absurd (Word.text_inj.mp hprop).symm hne
  have hnodup := nodup_fields compiled
  obtain ⟨before, after, hfields⟩ := List.append_of_mem hfield
  rw [hfields, List.nodup_append, List.nodup_cons] at hnodup
  have hbefore : ∀ other ∈ before, other.path.prop.text ≠ field.path.prop.text := by
    intro other hother hprop
    have heq := hunique other (by simp [hfields, hother]) hprop
    exact hnodup.2.2 other hother field List.mem_cons_self heq
  have hafter : ∀ other ∈ after, other.path.prop.text ≠ field.path.prop.text := by
    intro other hother hprop
    have heq := hunique other (by simp [hfields, hother]) hprop
    exact hnodup.2.1.1 (heq ▸ hother)
  unfold slot updates
  rw [hfields, Field.chain_append_of_forall_prop_ne hbefore, Field.chain_cons_self]
  simp [Field.chain_of_forall_prop_ne hafter, Field.cleanSlot_eq_ok_iff_of_member hsub,
    Definition.clean_workingValue]

theorem slot_of_array (conflictFree : validator.ConflictFree) (hfield : field ∈ validator.fields)
    (hsub : field.path.sub?.isSome = true) (cleaned : Option Json) :
    validator.slot doc field.path.prop.text = .ok cleaned ↔
      ∃ given results, Document.elements? (doc.get? field.path.prop.text) = some given ∧
        List.Forall₂ (fun element result => ∃ members cleaned, element = .obj members ∧
            Update.run (Field.memberUpdates validator.fields field.path.prop.text) members =
              .ok cleaned ∧ result = .obj cleaned)
          given results ∧ cleaned = some (.arr results) := by
  have hsubs : ∀ other ∈ validator.fields, other.path.prop.text = field.path.prop.text →
      other.path.sub? ≠ none := by
    intro other hother hprop hnone
    exact conflictFree other hother field hfield hnone hsub (Word.text_inj.mp hprop)
  obtain ⟨sub, hsub⟩ := Option.isSome_iff_exists.mp hsub
  have hne := Field.memberUpdates_ne_nil hfield hsub
  unfold slot updates
  rw [Field.chain_eq_ok_iff_of_exists hsubs ⟨field, hfield, rfl⟩]
  simp only [Field.chain_arr_eq_ok_iff hsubs, Document.elements?_workingValue,
    Option.map_eq_some_iff, Update.foldlM_applyElement_eq_ok_iff hne]
  constructor
  . rintro ⟨_, ⟨given, hgiven, rfl⟩, results, hresults, rfl⟩
    rw [List.forall₂_map_left_iff] at hresults
    simp only [Document.workingElement_eq_obj_iff] at hresults
    exact ⟨given, results, hgiven, hresults, rfl⟩
  . rintro ⟨given, results, hgiven, hresults, rfl⟩
    refine ⟨_, ⟨given, hgiven, rfl⟩, results, ?_, rfl⟩
    rw [List.forall₂_map_left_iff]
    simpa only [Document.workingElement_eq_obj_iff] using hresults

theorem exists_run_memberUpdates_iff (compiled : ofSchema schema = .ok validator)
    {members : Entries Json} (nodup : members.keys.Nodup) :
    (∃ cleaned, Update.run (Field.memberUpdates validator.fields key) members = .ok cleaned) ↔
      ∀ field ∈ validator.fields, field.path.prop.text = key → ∀ sub, field.path.sub? = some sub →
        ∃ cleaned, field.definition.clean (members.get? sub.text) = .ok cleaned := by
  rw [Update.exists_run_iff nodup]
  constructor
  . rintro h field hfield rfl sub hsub
    obtain ⟨cleaned, hcleaned⟩ := h sub.text
    exact ⟨cleaned, (chain_memberUpdates_of_mem compiled hfield hsub _ _).mp hcleaned⟩
  . intro h subkey
    by_cases hmem : key ++ "." ++ subkey ∈ validator.paths
    . obtain ⟨field, hfield, htext⟩ := List.mem_map.mp hmem
      obtain ⟨rfl, hsubkey⟩ := (FieldPath.text_eq_dotted_iff _ _ _).mp htext
      obtain ⟨sub, hsub, rfl⟩ := Option.map_eq_some_iff.mp hsubkey
      obtain ⟨cleaned, hcleaned⟩ := h field hfield rfl sub hsub
      exact ⟨cleaned, (chain_memberUpdates_of_mem compiled hfield hsub _ _).mpr hcleaned⟩
    . exact ⟨_, chain_memberUpdates_of_notMem hmem _⟩

theorem cleansElement_of_run (compiled : ofSchema schema = .ok validator)
    {members cleaned : Entries Json} (nodup : members.keys.Nodup)
    (h : Update.run (Field.memberUpdates validator.fields key) members = .ok cleaned) :
    validator.CleansElement key (.obj members) (.obj cleaned) := by
  have hchain := Update.get?_run nodup h
  refine ⟨members, cleaned, rfl, rfl, Update.nodup_keys_run nodup h, ?_, ?_⟩
  . rintro field hfield rfl sub hsub
    exact (chain_memberUpdates_of_mem compiled hfield hsub _ _).mp (hchain sub.text)
  . intro subkey hnot
    have hsubkey := hchain subkey
    rw [chain_memberUpdates_of_notMem hnot, Except.ok.injEq] at hsubkey
    exact hsubkey.symm

theorem exists_slot_of_array_iff (compiled : ofSchema schema = .ok validator)
    (conflictFree : validator.ConflictFree) (wellFormed : Json.WellFormed (.obj doc))
    (hfield : field ∈ validator.fields) (hsub : field.path.sub?.isSome = true) :
    (∃ cleaned, validator.slot doc field.path.prop.text = .ok cleaned) ↔
      ∃ given, Document.elements? (doc.get? field.path.prop.text) = some given ∧
        ∀ element ∈ given, ∃ members, element = .obj members ∧
          ∀ other ∈ validator.fields, other.path.prop.text = field.path.prop.text →
            ∀ sub, other.path.sub? = some sub →
              ∃ cleaned, other.definition.clean (Entries.get? members sub.text) = .ok cleaned := by
  simp only [slot_of_array conflictFree hfield hsub]
  constructor
  . rintro ⟨_, given, results, hgiven, hresults, rfl⟩
    refine ⟨given, hgiven, ?_⟩
    intro element helement
    obtain ⟨_, members, cleaned, rfl, hrun, rfl⟩ :=
      (List.exists_forall₂_iff given).mp ⟨results, hresults⟩ element helement
    have hnodup := Document.nodup_of_elements? wellFormed hgiven helement
    exact ⟨members, rfl, (exists_run_memberUpdates_iff compiled hnodup).mp ⟨cleaned, hrun⟩⟩
  . rintro ⟨given, hgiven, hall⟩
    have hresults : ∀ element ∈ given, ∃ (result : Json) (members cleaned : Entries Json),
        element = .obj members ∧
          Update.run (Field.memberUpdates validator.fields field.path.prop.text) members =
            .ok cleaned ∧ result = .obj cleaned := by
      intro element helement
      obtain ⟨members, rfl, hclean⟩ := hall element helement
      have hnodup := Document.nodup_of_elements? wellFormed hgiven helement
      obtain ⟨cleaned, hrun⟩ := (exists_run_memberUpdates_iff compiled hnodup).mpr hclean
      exact ⟨.obj cleaned, members, cleaned, rfl, hrun, rfl⟩
    obtain ⟨results, hresults⟩ := (List.exists_forall₂_iff given).mpr hresults
    exact ⟨_, given, results, hgiven, hresults, rfl⟩

theorem admits_of_forall_slot (compiled : ofSchema schema = .ok validator)
    (conflictFree : validator.ConflictFree) (wellFormed : Json.WellFormed (.obj doc))
    (hslot : ∀ key, ∃ cleaned, validator.slot doc key = .ok cleaned)
    (hkeys : ∀ key, Document.Records doc key → key ∈ validator.paths) : validator.Admits doc := by
  refine ⟨?_, ?_, hkeys⟩
  . intro field hfield hsub
    obtain ⟨cleaned, hcleaned⟩ := hslot field.path.prop.text
    exact ⟨cleaned, (slot_of_member compiled conflictFree hfield hsub _).mp hcleaned⟩
  . intro field hfield sub hsub
    have hsome : field.path.sub?.isSome = true := by simp [hsub]
    obtain ⟨given, hgiven, hall⟩ :=
      (exists_slot_of_array_iff compiled conflictFree wellFormed hfield hsome).mp
        (hslot field.path.prop.text)
    refine ⟨given, hgiven, ?_⟩
    intro element helement
    obtain ⟨members, rfl, hclean⟩ := hall element helement
    exact ⟨members, rfl, hclean field hfield rfl sub hsub⟩

theorem exists_slot_of_admits (compiled : ofSchema schema = .ok validator)
    (conflictFree : validator.ConflictFree) (wellFormed : Json.WellFormed (.obj doc))
    (admits : validator.Admits doc) (key : String) :
    ∃ cleaned, validator.slot doc key = .ok cleaned := by
  by_cases hprop : ∃ field ∈ validator.fields, field.path.prop.text = key
  . obtain ⟨field, hfield, rfl⟩ := hprop
    cases hsub : field.path.sub? with
    | none =>
      obtain ⟨cleaned, hcleaned⟩ := admits.members field hfield hsub
      exact ⟨cleaned, (slot_of_member compiled conflictFree hfield hsub _).mpr hcleaned⟩
    | some sub =>
      have hsome : field.path.sub?.isSome = true := by simp [hsub]
      rw [exists_slot_of_array_iff compiled conflictFree wellFormed hfield hsome]
      obtain ⟨given, hgiven, hall⟩ := admits.elements field hfield sub hsub
      refine ⟨given, hgiven, ?_⟩
      intro element helement
      obtain ⟨members, rfl, _⟩ := hall element helement
      refine ⟨members, rfl, ?_⟩
      -- All fields of the array see the same elements.
      intro other hother hsame sub' hsub'
      obtain ⟨given', hgiven', hall'⟩ := admits.elements other hother sub' hsub'
      rw [hsame, hgiven, Option.some.injEq] at hgiven'
      obtain ⟨members', heq, hclean⟩ := hall' _ (hgiven' ▸ helement)
      rw [Json.obj.injEq] at heq
      exact heq ▸ hclean
  . have hprop : ∀ field ∈ validator.fields, field.path.prop.text ≠ key := by
      simpa using hprop
    exact ⟨_, slot_of_forall_prop_ne hprop⟩

theorem exists_validateObject_iff_admits (compiled : ofSchema schema = .ok validator)
    (conflictFree : validator.ConflictFree) (wellFormed : Json.WellFormed (.obj doc)) :
    (∃ out, validator.validateObject doc = .ok out) ↔ validator.Admits doc := by
  rw [exists_validateObject_iff validator wellFormed.nodup]
  constructor
  . rintro ⟨hslot, hkeys⟩
    exact admits_of_forall_slot compiled conflictFree wellFormed hslot hkeys
  . intro admits
    exact ⟨exists_slot_of_admits compiled conflictFree wellFormed admits, admits.keys⟩

theorem cleans_of_validateObject (compiled : ofSchema schema = .ok validator)
    (conflictFree : validator.ConflictFree) (wellFormed : Json.WellFormed (.obj doc))
    (h : validator.validateObject doc = .ok out) : validator.Cleans doc out := by
  have hslot := slot_of_validateObject wellFormed.nodup h
  refine ⟨nodup_of_validateObject wellFormed.nodup h, ?_, ?_, ?_⟩
  . intro field hfield hsub
    exact (slot_of_member compiled conflictFree hfield hsub _).mp (hslot _)
  . intro field hfield hsub
    obtain ⟨given, results, hgiven, hresults, hout⟩ :=
      (slot_of_array conflictFree hfield hsub _).mp (hslot _)
    refine ⟨given, results, hgiven, ?_, hout⟩
    apply List.forall₂_imp_of_mem hresults
    rintro element hmem result _ ⟨members, cleaned, rfl, hrun, rfl⟩
    have hnodup := Document.nodup_of_elements? wellFormed hgiven hmem
    exact cleansElement_of_run compiled hnodup hrun
  . intro key hprop
    have hkey := hslot key
    rw [slot_of_forall_prop_ne hprop, Except.ok.injEq] at hkey
    exact hkey.symm

theorem validateObject_refines (compiled : ofSchema schema = .ok validator)
    (conflictFree : validator.ConflictFree) (wellFormed : Json.WellFormed (.obj doc)) :
    ((∃ out, validator.validateObject doc = .ok out) ↔ validator.Admits doc) ∧
      ∀ out, validator.validateObject doc = .ok out → validator.Cleans doc out :=
  ⟨exists_validateObject_iff_admits compiled conflictFree wellFormed,
    fun _ => cleans_of_validateObject compiled conflictFree wellFormed⟩

end

theorem refines_items :
    ∃ validator, ofSchema (.ofList [("n", .number {}), ("items.x", .integer {}),
        ("items.y", .boolean)]) = .ok validator ∧
      validator.Admits [("items", .arr [.obj [("y", .str "1"), ("x", .str "3")]])] ∧
      validator.Cleans [("items", .arr [.obj [("y", .str "1"), ("x", .str "3")]])]
        [("items", .arr [.obj [("y", .bool true), ("x", .ofNat 3)]]), ("n", .ofNat 0)] := by
  have hcompiled : ofSchema (.ofList [("n", .number {}), ("items.x", .integer {}),
      ("items.y", .boolean)]) =
      .ok ⟨[⟨⟨⟨"n", by decide⟩, none⟩, .number {}⟩,
        ⟨⟨⟨"items", by decide⟩, some ⟨"x", by decide⟩⟩, .integer {}⟩,
        ⟨⟨⟨"items", by decide⟩, some ⟨"y", by decide⟩⟩, .boolean⟩]⟩ := by
    decide
  have hwell : Json.WellFormed
      (.obj [("items", .arr [.obj [("y", .str "1"), ("x", .str "3")]])]) := by
    refine .obj (by decide) (List.forall_mem_singleton.mpr (.arr ?_))
    refine List.forall_mem_singleton.mpr (.obj (by decide) ?_)
    exact List.forall_mem_cons.mpr ⟨.str "1", List.forall_mem_singleton.mpr (.str "3")⟩
  obtain ⟨hadmits, hcleans⟩ := validateObject_refines hcompiled (by decide) hwell
  refine ⟨_, hcompiled, hadmits.mp
    ⟨[("items", .arr [.obj [("y", .bool true), ("x", .ofNat 3)]]), ("n", .ofNat 0)], ?_⟩,
    hcleans _ ?_⟩
  all_goals decide +kernel

end Validator

end Intake
