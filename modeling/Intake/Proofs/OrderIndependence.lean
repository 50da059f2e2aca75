import Intake.Pattern.Engine
import Intake.Proofs.Leftovers
import Intake.Proofs.Refinement
import Intake.Proofs.Simulation

/-!
This module contains that order does not matter to a validator. The order of the keys of a document
shows up in the order of what is returned or reported, and nowhere else; and if no name is both a
member and an array, the same is true of the order of the fields.
-/

namespace Intake

/--
The same path, and the same kind and message unless both list unexpected keys. These are the same
keys, possibly in another order.
-/
def Rejection.Alike (rejection rejection' : Rejection) : Prop :=
  rejection.path = rejection'.path ∧
    (rejection.kind = rejection'.kind ∧ rejection.message = rejection'.message ∨
      ∃ keys keys', rejection.kind = .unexpected keys ∧ rejection'.kind = .unexpected keys' ∧
        keys.Perm keys')

theorem Rejection.SameFault.alike {rejection rejection' : Rejection}
    (h : rejection.SameFault rejection') : rejection.Alike rejection' :=
  ⟨h.2, Or.inl ⟨congrArg Cause.kind h.1, congrArg Cause.message h.1⟩⟩

namespace Document

variable {doc doc' : Entries Json} {key : String}

theorem Agree.records_iff (h : Agree doc doc') : Records doc key ↔ Records doc' key :=
  ⟨h.records, h.symm.records⟩

end Document

namespace Validator

section

variable [Engine] {schema schema' : Schema} {validator validator' : Validator}
  {doc doc' out out' : Entries Json}

theorem perm_leftovers (validator : Validator) (h : Document.Agree doc doc') :
    (validator.leftovers doc).Perm (validator.leftovers doc') := by
  rw [List.perm_ext_iff_of_nodup (validator.leavesOver_leftovers doc).nodup
    (validator.leavesOver_leftovers doc').nodup]
  intro key
  rw [mem_leftovers_iff, mem_leftovers_iff, Document.mem_recordedKeys_iff,
    Document.mem_recordedKeys_iff, h.records_iff]

theorem mem_paths_iff_of_perm (hfields : validator.fields.Perm validator'.fields) (path : String) :
    path ∈ validator.paths ↔ path ∈ validator'.paths :=
  (hfields.map _).mem_iff

theorem rel_validateObject (validator : Validator) (h : Document.Agree doc doc') :
    Except.Rel Rejection.Alike Document.Agree (validator.validateObject doc)
      (validator.validateObject doc') := by
  have hperm := validator.perm_leftovers h
  rw [validateObject_eq, validateObject_eq]
  apply Except.Rel.bind
  . apply (Field.rel_run validator.fields doc doc' h.workingCopy).mono
    intro fault fault' hfault
    exact hfault.alike
  . intro copy copy' hcopy
    cases hnil : validator.leftovers doc with
    | nil =>
      rw [hnil, List.nil_perm] at hperm
      rw [if_pos rfl, if_pos hperm]
      exact .ok hcopy
    | cons key keys =>
      rw [hnil] at hperm
      have hne : validator.leftovers doc' ≠ [] := by
        intro heq
        simp [heq] at hperm
      rw [if_neg (by simp), if_neg hne]
      exact .error ⟨rfl, Or.inr ⟨_, _, rfl, rfl, hperm⟩⟩

/-! The fields of a validator in another order. -/

theorem ConflictFree.of_perm (conflictFree : validator.ConflictFree)
    (hfields : validator.fields.Perm validator'.fields) : validator'.ConflictFree := by
  intro field hfield other hother
  exact conflictFree field (hfields.mem_iff.mpr hfield) other (hfields.mem_iff.mpr hother)

theorem Admits.of_perm (admits : validator.Admits doc)
    (hfields : validator.fields.Perm validator'.fields) : validator'.Admits doc := by
  refine ⟨?_, ?_, ?_⟩
  . intro field hfield
    exact admits.members field (hfields.mem_iff.mpr hfield)
  . intro field hfield
    exact admits.elements field (hfields.mem_iff.mpr hfield)
  . intro key hkey
    exact (mem_paths_iff_of_perm hfields key).mp (admits.keys key hkey)

theorem CleansElement.of_perm {key : String} {given cleaned : Json}
    (h : validator.CleansElement key given cleaned)
    (hfields : validator.fields.Perm validator'.fields) :
    validator'.CleansElement key given cleaned := by
  obtain ⟨members, results, hgiven, hcleaned, hnodup, hclean, hrest⟩ := h
  refine ⟨members, results, hgiven, hcleaned, hnodup, ?_, ?_⟩
  . intro field hfield
    exact hclean field (hfields.mem_iff.mpr hfield)
  . intro subkey hnot
    apply hrest
    rwa [mem_paths_iff_of_perm hfields]

theorem Cleans.of_perm (cleans : validator.Cleans doc out)
    (hfields : validator.fields.Perm validator'.fields) : validator'.Cleans doc out := by
  refine ⟨cleans.nodup, ?_, ?_, ?_⟩
  . intro field hfield
    exact cleans.members field (hfields.mem_iff.mpr hfield)
  . intro field hfield hsub
    obtain ⟨given, results, hgiven, hresults, hout⟩ :=
      cleans.elements field (hfields.mem_iff.mpr hfield) hsub
    exact ⟨given, results, hgiven, hresults.imp fun _ _ h => h.of_perm hfields, hout⟩
  . intro key hprop
    apply cleans.rest
    intro field hfield
    exact hprop field (hfields.mem_iff.mp hfield)

theorem CleansElement.agree {key : String} {given cleaned cleaned' : Json}
    (h : validator.CleansElement key given cleaned)
    (h' : validator.CleansElement key given cleaned') : cleaned.ElementsAgree cleaned' := by
  obtain ⟨members, results, rfl, rfl, hnodup, hclean, hrest⟩ := h
  obtain ⟨_, results', heq, rfl, hnodup', hclean', hrest'⟩ := h'
  obtain rfl := Json.obj.inj heq
  refine .obj ⟨hnodup, hnodup', ?_⟩
  intro subkey
  rw [Option.rel_eq_iff]
  by_cases hpath : key ++ "." ++ subkey ∈ validator.paths
  . obtain ⟨field, hfield, htext⟩ := List.mem_map.mp hpath
    obtain ⟨hprop, hsubkey⟩ := (FieldPath.text_eq_dotted_iff _ _ _).mp htext
    obtain ⟨sub, hsub, rfl⟩ := Option.map_eq_some_iff.mp hsubkey
    have hcleaned := hclean field hfield hprop sub hsub
    rw [hclean' field hfield hprop sub hsub, Except.ok.injEq] at hcleaned
    exact hcleaned.symm
  . rw [hrest subkey hpath, hrest' subkey hpath]

theorem Cleans.agree (cleans : validator.Cleans doc out) (cleans' : validator.Cleans doc out') :
    Document.Agree out out' := by
  refine ⟨cleans.nodup, cleans'.nodup, ?_⟩
  intro key
  have hrefl {slot slot' : Option Json} (heq : slot = slot') :
      Option.Rel Json.ValuesAgree slot slot' :=
    heq ▸ Option.rel_refl Json.OnElements.refl slot
  by_cases hprop : ∃ field ∈ validator.fields, field.path.prop.text = key
  . obtain ⟨field, hfield, rfl⟩ := hprop
    cases hsub : field.path.sub? with
    | none =>
      apply hrefl
      have hclean := cleans.members field hfield hsub
      rw [cleans'.members field hfield hsub, Except.ok.injEq] at hclean
      exact hclean.symm
    | some sub =>
      obtain ⟨given, results, hgiven, hresults, hout⟩ :=
        cleans.elements field hfield (by simp [hsub])
      obtain ⟨_, results', hgiven', hresults', hout'⟩ :=
        cleans'.elements field hfield (by simp [hsub])
      obtain rfl := Option.some.inj (hgiven.symm.trans hgiven')
      have hpairs := (List.forall₂_comp_iff _ _).mp ⟨given, hresults.flip, hresults'⟩
      rw [hout, hout']
      apply Option.Rel.some
      apply Json.OnElements.arr
      exact hpairs.imp fun _ _ ⟨_, h, h'⟩ => CleansElement.agree h h'
  . have hprop : ∀ field ∈ validator.fields, field.path.prop.text ≠ key := by
      simpa using hprop
    apply hrefl
    rw [cleans.rest key hprop, cleans'.rest key hprop]

theorem order_irrelevant (compiled : ofSchema schema = .ok validator) :
    (∀ doc doc', Json.WellFormed (.obj doc) → Document.Rearranges doc doc' →
      Except.Rel Rejection.Alike Document.Agree (validator.validate (.obj doc))
        (validator.validate (.obj doc'))) ∧
    ∀ schema' validator', ofSchema schema' = .ok validator' →
      validator.fields.Perm validator'.fields → validator.ConflictFree →
      ∀ document : Json, document.WellFormed →
        ((∃ out, validator.validate document = .ok out) ↔
          ∃ out, validator'.validate document = .ok out) ∧
        ∀ out out', validator.validate document = .ok out →
          validator'.validate document = .ok out' → Document.Agree out out' := by
  constructor
  . intro doc doc' wellFormed h
    exact rel_validateObject validator (h.agree wellFormed)
  . intro schema' validator' compiled' hfields conflictFree document wellFormed
    have conflictFree' := ConflictFree.of_perm conflictFree hfields
    cases document with
    | obj doc =>
      simp only [validate_obj]
      obtain ⟨haccepts, hcleans⟩ := validateObject_refines compiled conflictFree wellFormed
      obtain ⟨haccepts', hcleans'⟩ := validateObject_refines compiled' conflictFree' wellFormed
      constructor
      . rw [haccepts, haccepts']
        exact ⟨fun admits => admits.of_perm hfields, fun admits => admits.of_perm hfields.symm⟩
      . intro out out' hout hout'
        exact ((hcleans out hout).of_perm hfields).agree (hcleans' out' hout')
    | _ => simp [validate]

end

theorem order_irrelevant_items :
    ∃ validator validator' out out', ofSchema (.ofList [("n", .number {}), ("items.x", .integer {}),
        ("items.y", .boolean)]) = .ok validator ∧
      ofSchema (.ofList [("items.y", .boolean), ("n", .number {}), ("items.x", .integer {})]) =
        .ok validator' ∧
      validator.fields.Perm validator'.fields ∧ validator.ConflictFree ∧
      Document.Rearranges
        [("items", .arr [.obj [("y", .str "1"), ("x", .str "3")], .obj []]), ("n", .ofNat 2)]
        [("n", .ofNat 2), ("items", .arr [.obj [("x", .str "3"), ("y", .str "1")], .obj []])] ∧
      Except.Rel Rejection.Alike Document.Agree
        (validator.validate (.obj
          [("items", .arr [.obj [("y", .str "1"), ("x", .str "3")], .obj []]), ("n", .ofNat 2)]))
        (validator.validate (.obj
          [("n", .ofNat 2), ("items", .arr [.obj [("x", .str "3"), ("y", .str "1")], .obj []])])) ∧
      validator.validate (.obj
        [("items", .arr [.obj [("y", .str "1"), ("x", .str "3")], .obj []]), ("n", .ofNat 2)]) =
        .ok out ∧
      validator'.validate (.obj
        [("items", .arr [.obj [("y", .str "1"), ("x", .str "3")], .obj []]), ("n", .ofNat 2)]) =
        .ok out' ∧
      Document.Agree out out' := by
  have hcompiled : ofSchema (.ofList [("n", .number {}), ("items.x", .integer {}),
      ("items.y", .boolean)]) =
      .ok ⟨[⟨⟨⟨"n", by decide⟩, none⟩, .number {}⟩,
        ⟨⟨⟨"items", by decide⟩, some ⟨"x", by decide⟩⟩, .integer {}⟩,
        ⟨⟨⟨"items", by decide⟩, some ⟨"y", by decide⟩⟩, .boolean⟩]⟩ := by
    decide
  have hcompiled' : ofSchema (.ofList [("items.y", .boolean), ("n", .number {}),
      ("items.x", .integer {})]) =
      .ok ⟨[⟨⟨⟨"items", by decide⟩, some ⟨"y", by decide⟩⟩, .boolean⟩,
        ⟨⟨⟨"n", by decide⟩, none⟩, .number {}⟩,
        ⟨⟨⟨"items", by decide⟩, some ⟨"x", by decide⟩⟩, .integer {}⟩]⟩ := by
    decide
  have hwell : Json.WellFormed (.obj
      [("items", .arr [.obj [("y", .str "1"), ("x", .str "3")], .obj []]), ("n", .ofNat 2)]) := by
    refine .obj (by decide) (List.forall_mem_cons.mpr ⟨.arr ?_, List.forall_mem_singleton.mpr ?_⟩)
    . refine List.forall_mem_cons.mpr ⟨.obj (by decide) ?_, List.forall_mem_singleton.mpr ?_⟩
      . exact List.forall_mem_cons.mpr ⟨.str "1", List.forall_mem_singleton.mpr (.str "3")⟩
      . exact .obj (by decide) (by simp)
    . exact .num _
  have hrearranges : Document.Rearranges
      [("items", .arr [.obj [("y", .str "1"), ("x", .str "3")], .obj []]), ("n", .ofNat 2)]
      [("n", .ofNat 2), ("items", .arr [.obj [("x", .str "3"), ("y", .str "1")], .obj []])] := by
    refine ⟨_, List.Perm.swap _ _ _, .cons ⟨rfl, .refl _⟩ (.cons ⟨rfl, .arr ?_⟩ .nil)⟩
    exact .cons (.obj (List.Perm.swap _ _ _)) (.cons (.refl _) .nil)
  obtain ⟨hdocs, hfields⟩ := order_irrelevant hcompiled
  obtain ⟨_, hagree⟩ := hfields _ _ hcompiled' (by decide) (by decide) _ hwell
  -- The second element has no keys and gets them in the order of the fields.
  refine ⟨_, _,
    [("items", .arr [.obj [("y", .bool true), ("x", .ofNat 3)],
      .obj [("x", .ofNat 0), ("y", .bool false)]]), ("n", .ofNat 2)],
    [("items", .arr [.obj [("y", .bool true), ("x", .ofNat 3)],
      .obj [("y", .bool false), ("x", .ofNat 0)]]), ("n", .ofNat 2)],
    hcompiled, hcompiled', by decide, by decide, hrearranges, hdocs _ _ hwell hrearranges, ?_, ?_,
    hagree _ _ ?_ ?_⟩
  all_goals decide +kernel

end Validator

end Intake
