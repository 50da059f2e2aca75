import Intake.Pattern.Engine
import Intake.Proofs.Verdict

/-!
This module contains which rejection a document gets. The fields are asked in the order of the
schema and the elements of an array in theirs, and the first fault that the document has in this
order is reported. Keys that no field claims are reported only if there is no fault.
-/

namespace Intake

namespace Field

variable [Engine]

def Faultless (field : Field) (doc : Entries Json) : Prop :=
  ∀ index rejection, ¬ field.Faults doc index rejection

theorem faultless_iff (field : Field) (doc : Entries Json) :
    field.Faultless doc ↔ ∀ rejection, ¬ field.FirstFault doc rejection := by
  rw [← not_exists, exists_firstFault_iff]
  simp [Faultless]

end Field

namespace Validator

section

variable [Engine]

def Faultless (validator : Validator) (doc : Entries Json) : Prop :=
  ∀ field ∈ validator.fields, field.Faultless doc

def FirstFault (validator : Validator) (doc : Entries Json) (rejection : Rejection) : Prop :=
  ∃ before field after, validator.fields = before ++ field :: after ∧
    (∀ other ∈ before, other.Faultless doc) ∧ field.FirstFault doc rejection

variable {schema : Schema} {validator : Validator} {field : Field} {before after : List Field}
  {doc mid : Entries Json} {rejection : Rejection}

theorem path_notMem_of_append (compiled : ofSchema schema = .ok validator)
    (hfields : validator.fields = before ++ field :: after) :
    field.path.text ∉ before.map (·.path.text) := by
  have hnodup := nodup_paths compiled
  rw [paths, hfields, List.map_append, List.map_cons, List.nodup_append] at hnodup
  intro hmem
  exact hnodup.2.2 _ hmem _ List.mem_cons_self rfl

theorem prop_ne_of_append (compiled : ofSchema schema = .ok validator)
    (conflictFree : validator.ConflictFree)
    (hfields : validator.fields = before ++ field :: after) (hsub : field.path.sub? = none) :
    ∀ other ∈ before, other.path.prop.text ≠ field.path.prop.text := by
  intro other hother hprop
  have hmem : other ∈ validator.fields := by simp [hfields, hother]
  have hfield : field ∈ validator.fields := by simp [hfields]
  cases hotherSub : other.path.sub? with
  | none =>
    have heq := field_eq_of_prop_eq compiled hmem hfield hotherSub hsub hprop
    apply path_notMem_of_append compiled hfields
    exact List.mem_map.mpr ⟨other, hother, congrArg (·.path.text) heq⟩
  | some sub =>
    have hne := conflictFree field hfield other hmem hsub (by simp [hotherSub])
    exact hne (Word.text_inj.mp hprop).symm

theorem cleanSlot_eq_error_iff_of_run (compiled : ofSchema schema = .ok validator)
    (conflictFree : validator.ConflictFree) (wellFormed : Json.WellFormed (.obj doc))
    (hfields : validator.fields = before ++ field :: after)
    (hrun : Update.run (before.map (·.update doc)) (Document.workingCopy doc) = .ok mid) :
    field.cleanSlot doc (mid.get? field.path.prop.text) = .error rejection ↔
      field.FirstFault doc rejection := by
  have hchain := Field.chain_of_run_workingCopy wellFormed.nodup hrun field.path.prop.text
  rw [← Field.cleanSlot_eq_error_iff]
  cases hsub : field.path.sub? with
  | none =>
    rw [Field.chain_of_forall_prop_ne (prop_ne_of_append compiled conflictFree hfields hsub),
      Except.ok.injEq] at hchain
    rw [← hchain]
    exact Field.cleanSlot_workingValue_eq_error_iff field doc
  | some sub =>
    apply Field.cleanSlot_eq_error_iff_of_chain hsub (path_notMem_of_append compiled hfields) _
      wellFormed hchain
    intro other hother hprop hnone
    have hne := conflictFree other (by simp [hfields, hother]) field (by simp [hfields]) hnone
      (by simp [hsub])
    exact hne (Word.text_inj.mp hprop)

theorem faultless_of_run (compiled : ofSchema schema = .ok validator)
    (conflictFree : validator.ConflictFree) (wellFormed : Json.WellFormed (.obj doc))
    (hfields : validator.fields = before ++ after)
    (hrun : Update.run (before.map (·.update doc)) (Document.workingCopy doc) = .ok mid) :
    ∀ field ∈ before, field.Faultless doc := by
  intro field hfield
  obtain ⟨first, second, rfl⟩ := List.append_of_mem hfield
  obtain ⟨copy, next, hcopy, hnext, _⟩ :=
    (Field.run_eq_ok_iff_of_append_cons field _ _).mp hrun
  rw [List.append_assoc, List.cons_append] at hfields
  rw [Field.faultless_iff]
  intro rejection hfault
  rw [← cleanSlot_eq_error_iff_of_run compiled conflictFree wellFormed hfields hcopy] at hfault
  obtain ⟨cleaned, hcleaned, _⟩ := Update.apply_eq_ok_iff.mp hnext
  have hcontra := hcleaned.symm.trans hfault
  simp at hcontra

theorem exists_append_of_run_eq_error (compiled : ofSchema schema = .ok validator)
    (conflictFree : validator.ConflictFree) (wellFormed : Json.WellFormed (.obj doc))
    (hfields : validator.fields = before ++ after)
    (hrun : Update.run (before.map (·.update doc)) (Document.workingCopy doc) = .error rejection) :
    ∃ first field second, before = first ++ field :: second ∧
      (∀ other ∈ first, other.Faultless doc) ∧ field.FirstFault doc rejection := by
  obtain ⟨first, field, second, mid, rfl, hmid, hfault⟩ := (Field.run_eq_error_iff _ _ _).mp hrun
  rw [List.append_assoc, List.cons_append] at hfields
  refine ⟨first, field, second, rfl, ?_, ?_⟩
  . exact faultless_of_run compiled conflictFree wellFormed hfields hmid
  . exact (cleanSlot_eq_error_iff_of_run compiled conflictFree wellFormed hfields hmid).mp hfault

theorem run_eq_error_iff_firstFault (compiled : ofSchema schema = .ok validator)
    (conflictFree : validator.ConflictFree) (wellFormed : Json.WellFormed (.obj doc)) :
    Update.run (validator.updates doc) (Document.workingCopy doc) = .error rejection ↔
      validator.FirstFault doc rejection := by
  constructor
  . intro hrun
    exact exists_append_of_run_eq_error compiled conflictFree wellFormed
      (List.append_nil _).symm hrun
  . rintro ⟨before, field, after, hfields, hbefore, hfault⟩
    unfold updates
    rw [Field.run_eq_error_iff]
    cases hrun : Update.run (before.map (·.update doc)) (Document.workingCopy doc) with
    | ok mid =>
      refine ⟨before, field, after, mid, hfields, hrun, ?_⟩
      exact (cleanSlot_eq_error_iff_of_run compiled conflictFree wellFormed hfields hrun).mpr hfault
    | error other =>
      obtain ⟨first, faulty, second, rfl, _, hother⟩ :=
        exists_append_of_run_eq_error compiled conflictFree wellFormed hfields hrun
      have hfaultless := hbefore faulty (by simp)
      exact absurd hother ((Field.faultless_iff faulty doc).mp hfaultless other)

theorem exists_run_iff_faultless (compiled : ofSchema schema = .ok validator)
    (conflictFree : validator.ConflictFree) (wellFormed : Json.WellFormed (.obj doc)) :
    (∃ copy, Update.run (validator.updates doc) (Document.workingCopy doc) = .ok copy) ↔
      validator.Faultless doc := by
  constructor
  . rintro ⟨copy, hrun⟩
    exact faultless_of_run compiled conflictFree wellFormed (List.append_nil _).symm hrun
  . intro hfaultless
    rw [Except.exists_eq_ok_iff]
    intro rejection hrun
    obtain ⟨before, field, after, hfields, _, hfault⟩ :=
      (run_eq_error_iff_firstFault compiled conflictFree wellFormed).mp hrun
    have hfield := hfaultless field (by simp [hfields])
    exact (Field.faultless_iff field doc).mp hfield rejection hfault

theorem validate_eq_error_iff (compiled : ofSchema schema = .ok validator) :
    (validator.ConflictFree → ∀ doc, Json.WellFormed (.obj doc) → ∀ rejection,
      (validator.validate (.obj doc) = .error rejection ↔
        validator.FirstFault doc rejection ∨
        validator.Faultless doc ∧ validator.leftovers doc ≠ [] ∧
          rejection = ⟨.unexpected (validator.leftovers doc), [], none⟩)) ∧
    ∀ value rejection, validator.validate value = .error rejection → rejection.kind ≠ .schema := by
  refine ⟨?_, fun _ _ => kind_ne_schema_of_validate⟩
  intro conflictFree doc wellFormed rejection
  rw [validate_obj, validateObject_eq_error_iff,
    run_eq_error_iff_firstFault compiled conflictFree wellFormed,
    exists_run_iff_faultless compiled conflictFree wellFormed]
  rfl

end

theorem first_fault_items :
    ∃ validator rejection,
      ofSchema (.ofList [("items.x", .integer {}), ("items.y", .boolean)]) = .ok validator ∧
      validator.ConflictFree ∧
      rejection = (Rejection.of .notObject none).locate [.field "items", .index 1, .field "x"] ∧
      validator.FirstFault [("items", .arr [.obj [("x", .str "3"), ("y", .str "no")], .ofNat 7])]
        rejection ∧
      rejection.kind ≠ .schema := by
  have hcompiled : ofSchema (.ofList [("items.x", .integer {}), ("items.y", .boolean)]) =
      .ok ⟨[⟨⟨⟨"items", by decide⟩, some ⟨"x", by decide⟩⟩, .integer {}⟩,
        ⟨⟨⟨"items", by decide⟩, some ⟨"y", by decide⟩⟩, .boolean⟩]⟩ := by
    decide
  have hwell : Json.WellFormed
      (.obj [("items", .arr [.obj [("x", .str "3"), ("y", .str "no")], .ofNat 7])]) := by
    refine .obj (by decide) (List.forall_mem_singleton.mpr (.arr ?_))
    refine List.forall_mem_cons.mpr ⟨.obj (by decide) ?_, List.forall_mem_singleton.mpr ?_⟩
    . exact List.forall_mem_cons.mpr ⟨.str "3", List.forall_mem_singleton.mpr (.str "no")⟩
    . exact .num _
  -- The field of `x` comes first, although the fault of `y` lies in an earlier element.
  have hrejected :
      validate ⟨[⟨⟨⟨"items", by decide⟩, some ⟨"x", by decide⟩⟩, .integer {}⟩,
          ⟨⟨⟨"items", by decide⟩, some ⟨"y", by decide⟩⟩, .boolean⟩]⟩
        (.obj [("items", .arr [.obj [("x", .str "3"), ("y", .str "no")], .ofNat 7])]) =
        .error ((Rejection.of .notObject none).locate [.field "items", .index 1, .field "x"]) := by
    decide +kernel
  obtain ⟨hreject, hkind⟩ := validate_eq_error_iff hcompiled
  refine ⟨_, _, hcompiled, by decide, rfl, ?_, hkind _ _ hrejected⟩
  cases (hreject (by decide) _ hwell _).mp hrejected with
  | inl hfault => exact hfault
  | inr hleft => simp [Rejection.locate, Rejection.of] at hleft

end Validator

end Intake
