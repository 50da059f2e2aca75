import Intake.Pattern.Engine
import Intake.Proofs.Idempotence
import Intake.Proofs.Refinement

/-!
This module contains that the output of a validator is a fixed point of it. In the output every
place is what its field makes of it, so that the second run finds nothing to do.
-/

namespace Intake

theorem Document.workingValue_idem (value : Json) :
    workingValue (workingValue value) = workingValue value := by
  cases value with
  | arr elements =>
    simp only [workingValue, List.map_map, Json.arr.injEq]
    apply List.map_congr_left
    intro element _
    cases element <;> rfl
  | _ => rfl

theorem Document.eq_arr_of_elements? {slot : Option Json} {given : List Json} {element : Json}
    (h : elements? slot = some given) (hmem : element ∈ given) : slot = some (.arr given) := by
  unfold elements? at h
  split at h
  . rw [Option.some.inj h]
  . simp at h
  . rw [← Option.some.inj h] at hmem
    simp at hmem

namespace Validator

section

variable [Engine]

structure Settled (validator : Validator) (doc : Entries Json) : Prop where
  members : ∀ field ∈ validator.fields, field.path.sub? = none →
    field.definition.clean (doc.get? field.path.prop.text) =
      .ok (doc.get? field.path.prop.text)
  elements : ∀ field ∈ validator.fields, ∀ sub, field.path.sub? = some sub →
    ∃ elements, doc.get? field.path.prop.text = some (.arr elements) ∧
      ∀ element ∈ elements, ∃ members, element = .obj members ∧
        field.definition.clean (Entries.get? members sub.text) =
          .ok (Entries.get? members sub.text)
  values : ∀ member ∈ doc, Document.workingValue member.2 = member.2
  keys : ∀ key, Document.Records doc key → key ∈ validator.paths

variable {schema : Schema} {validator : Validator} {doc out : Entries Json} {key : String}
  {value : Json}

theorem workingCopy_of_settled (settled : validator.Settled doc) :
    Document.workingCopy doc = doc := by
  unfold Document.workingCopy
  rw [List.map_congr_left (g := id), List.map_id]
  rintro ⟨key, value⟩ hmem
  exact congrArg (key, ·) (settled.values _ hmem)

theorem validateObject_of_settled (settled : validator.Settled doc) :
    validator.validateObject doc = .ok doc := by
  rw [validateObject_eq_ok_iff, workingCopy_of_settled settled]
  constructor
  . apply Update.run_eq_self
    intro update hmem
    obtain ⟨field, hfield, rfl⟩ := List.mem_map.mp hmem
    cases hsub : field.path.sub? with
    | none =>
      exact (Field.cleanSlot_eq_ok_iff_of_member hsub _ _).mpr
        (settled.members field hfield hsub)
    | some sub =>
      obtain ⟨elements, hget, hall⟩ := settled.elements field hfield sub hsub
      refine (Field.cleanSlot_eq_ok_iff_of_array hsub _ _).mpr ⟨elements, elements, ?_, ?_, hget⟩
      . exact congrArg Document.elements? hget
      . rw [List.forall₂_same]
        intro element helement
        obtain ⟨members, rfl, hclean⟩ := hall element helement
        rw [Field.cleanElement_eq, Update.applyElement, Except.map_eq_ok_iff]
        refine ⟨members, Update.apply_eq_ok_iff.mpr ⟨_, hclean, ?_⟩, rfl⟩
        exact Field.store_get?_self members sub.text
  . intro key hkey
    exact settled.keys key ((Document.mem_recordedKeys_iff doc key).mp hkey)

theorem Cleans.member_cases (cleans : validator.Cleans doc out) (hmem : (key, value) ∈ out) :
    (∃ field ∈ validator.fields, field.path.sub? = none ∧ field.path.prop.text = key ∧
      field.definition.clean (doc.get? key) = .ok (some value)) ∨
    (∃ given results, Document.elements? (doc.get? key) = some given ∧
      List.Forall₂ (validator.CleansElement key) given results ∧ value = .arr results) ∨
    ∃ given, (key, given) ∈ doc ∧ value = Document.workingValue given := by
  have hget := (Entries.get?_eq_some_iff cleans.nodup key value).mpr hmem
  by_cases hprop : ∃ field ∈ validator.fields, field.path.prop.text = key
  . obtain ⟨field, hfield, rfl⟩ := hprop
    cases hsub : field.path.sub? with
    | none =>
      have hclean := cleans.members field hfield hsub
      rw [hget] at hclean
      exact Or.inl ⟨field, hfield, hsub, rfl, hclean⟩
    | some sub =>
      obtain ⟨given, results, hgiven, hresults, hout⟩ :=
        cleans.elements field hfield (by simp [hsub])
      rw [hget, Option.some.injEq] at hout
      exact Or.inr (Or.inl ⟨given, results, hgiven, hresults, hout⟩)
  . have hrest := cleans.rest key (by simpa using hprop)
    rw [hget, eq_comm, Option.map_eq_some_iff] at hrest
    obtain ⟨given, hgiven, heq⟩ := hrest
    exact Or.inr (Or.inr ⟨given, Entries.mem_of_get?_eq_some hgiven, heq.symm⟩)

theorem CleansElement.clean_cleaned {given cleaned : Json} {field : Field} {sub : Word}
    (h : validator.CleansElement field.path.prop.text given cleaned)
    (hfield : field ∈ validator.fields) (hsub : field.path.sub? = some sub) :
    ∃ members, cleaned = .obj members ∧
      field.definition.clean (Entries.get? members sub.text) =
        .ok (Entries.get? members sub.text) := by
  obtain ⟨_, results, _, rfl, _, hclean, _⟩ := h
  exact ⟨results, rfl, Definition.clean_cleaned (hclean field hfield rfl sub hsub)⟩

theorem CleansElement.mem_paths_or_mem_keys {given : Json} {members : List (String × Json)}
    {subkey : String} (h : validator.CleansElement key given (.obj members))
    (hsubkey : subkey ∈ Entries.keys members) :
    key ++ "." ++ subkey ∈ validator.paths ∨
      ∃ before, given = .obj before ∧ subkey ∈ Entries.keys before := by
  obtain ⟨before, results, rfl, heq, _, _, hrest⟩ := h
  rw [Json.obj.injEq] at heq
  subst heq
  by_cases hpath : key ++ "." ++ subkey ∈ validator.paths
  . exact Or.inl hpath
  . right
    -- A member that belongs to no field has been there before.
    refine ⟨before, rfl, ?_⟩
    by_contra hnot
    rw [← Entries.get?_eq_none_iff, ← hrest subkey hpath, Entries.get?_eq_none_iff] at hnot
    exact hnot hsubkey

theorem Cleans.workingValue_eq (cleans : validator.Cleans doc out) (hmem : (key, value) ∈ out) :
    Document.workingValue value = value := by
  obtain ⟨_, _, _, _, hclean⟩ | ⟨_, results, _, hresults, rfl⟩ | ⟨given, _, rfl⟩ :=
    cleans.member_cases hmem
  . apply Document.workingValue_of_ne_arr
    rintro elements rfl
    simpa [Json.isScalar] using Definition.isScalar_of_clean_eq_some hclean
  . rw [Document.workingValue, List.map_congr_left (g := id), List.map_id]
    intro element helement
    obtain ⟨_, _, _, _, _, rfl, _⟩ := List.exists_mem_of_forall₂ hresults helement
    rfl
  . exact Document.workingValue_idem given

theorem Cleans.mem_paths_of_records (cleans : validator.Cleans doc out)
    (hkeys : ∀ key, Document.Records doc key → key ∈ validator.paths)
    (hkey : Document.Records out key) : key ∈ validator.paths := by
  cases hkey with
  | member hmem hvalue =>
    obtain ⟨field, hfield, hsub, rfl, _⟩ | ⟨_, results, _, _, rfl⟩ | ⟨given, hgiven, rfl⟩ :=
      cleans.member_cases hmem
    . rw [← FieldPath.text_eq_of_sub?_eq_none hsub]
      exact List.mem_map_of_mem hfield
    . exact absurd rfl (hvalue results)
    . apply hkeys
      apply Document.Records.member hgiven
      rintro elements rfl
      exact hvalue _ rfl
  | @element key subkey elements members hmem helement hsubkey =>
    obtain ⟨_, _, _, _, hclean⟩ | ⟨given, results, hgiven, hresults, heq⟩ | ⟨given, hgiven, heq⟩ :=
      cleans.member_cases hmem
    . simpa [Json.isScalar] using Definition.isScalar_of_clean_eq_some hclean
    . -- A field that has cleaned the element has written its own member and kept the others.
      rw [Json.arr.injEq] at heq
      obtain ⟨before, hbefore, hcleans⟩ := List.exists_mem_of_forall₂ hresults (heq ▸ helement)
      cases hcleans.mem_paths_or_mem_keys hsubkey with
      | inl hpath => exact hpath
      | inr hkeep =>
        obtain ⟨members, rfl, hmembers⟩ := hkeep
        have hget := Document.eq_arr_of_elements? hgiven hbefore
        exact hkeys _ (.element (Entries.mem_of_get?_eq_some hget) hbefore hmembers)
    . cases given with
      | arr elements =>
        rw [Document.workingValue, Json.arr.injEq] at heq
        rw [heq, List.mem_map] at helement
        obtain ⟨element, helement, hworking⟩ := helement
        rw [Document.workingElement_eq_obj_iff] at hworking
        exact hkeys _ (.element hgiven (hworking ▸ helement) hsubkey)
      | _ => simp [Document.workingValue] at heq

theorem settled_of_validateObject (compiled : ofSchema schema = .ok validator)
    (conflictFree : validator.ConflictFree) (wellFormed : Json.WellFormed (.obj doc))
    (h : validator.validateObject doc = .ok out) : validator.Settled out := by
  have cleans := cleans_of_validateObject compiled conflictFree wellFormed h
  refine ⟨?_, ?_, ?_, ?_⟩
  . intro field hfield hsub
    exact Definition.clean_cleaned (cleans.members field hfield hsub)
  . intro field hfield sub hsub
    obtain ⟨_, results, _, hresults, hout⟩ := cleans.elements field hfield (by simp [hsub])
    refine ⟨results, hout, ?_⟩
    intro element helement
    obtain ⟨_, _, hcleans⟩ := List.exists_mem_of_forall₂ hresults helement
    exact hcleans.clean_cleaned hfield hsub
  . rintro ⟨key, value⟩ hmem
    exact cleans.workingValue_eq hmem
  . intro key hkey
    exact cleans.mem_paths_of_records (fun _ => mem_paths_of_validateObject h) hkey

theorem validate_output (compiled : ofSchema schema = .ok validator)
    (conflictFree : validator.ConflictFree) (wellFormed : Json.WellFormed (.obj doc))
    (h : validator.validate (.obj doc) = .ok out) : validator.validate (.obj out) = .ok out :=
  validateObject_of_settled (settled_of_validateObject compiled conflictFree wellFormed h)

end

theorem validate_output_tags :
    ∃ validator out, ofSchema (.ofList [("n", .integer {}), ("tags.s", .string ⟨none, true⟩)]) =
        .ok validator ∧
      validator.validate (.obj [("tags", .arr [.obj [("s", .str "")]]), ("n", .str "2.5")]) =
        .ok out ∧
      validator.validate (.obj out) = .ok out := by
  have hcompiled : ofSchema (.ofList [("n", .integer {}), ("tags.s", .string ⟨none, true⟩)]) =
      .ok ⟨[⟨⟨⟨"n", by decide⟩, none⟩, .integer {}⟩,
        ⟨⟨⟨"tags", by decide⟩, some ⟨"s", by decide⟩⟩, .string ⟨none, true⟩⟩]⟩ := by
    decide
  have hwell : Json.WellFormed
      (.obj [("tags", .arr [.obj [("s", .str "")]]), ("n", .str "2.5")]) := by
    refine .obj (by decide) (List.forall_mem_cons.mpr ⟨.arr ?_, List.forall_mem_singleton.mpr ?_⟩)
    . refine List.forall_mem_singleton.mpr (.obj (by decide) ?_)
      exact List.forall_mem_singleton.mpr (.str "")
    . exact .str "2.5"
  have haccepted :
      validate ⟨[⟨⟨⟨"n", by decide⟩, none⟩, .integer {}⟩,
          ⟨⟨⟨"tags", by decide⟩, some ⟨"s", by decide⟩⟩, .string ⟨none, true⟩⟩]⟩
        (.obj [("tags", .arr [.obj [("s", .str "")]]), ("n", .str "2.5")]) =
        .ok [("tags", .arr [.obj []]), ("n", .ofNat 3)] := by
    decide +kernel
  exact ⟨_, _, hcompiled, haccepted, validate_output hcompiled (by decide) hwell haccepted⟩

end Validator

end Intake
