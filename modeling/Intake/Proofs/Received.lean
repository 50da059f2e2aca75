import Intake.Pattern.Engine
import Intake.Proofs.Conflict
import Intake.Proofs.FirstFault

/-!
This module contains which value a rejection shows. It is the one that the caller gave at the place,
except for a name that is declared as an array after it has been declared as a member: the fields of
the array find what the field of the member has made of the value, and show that.
-/

namespace Intake

namespace Json

def at? : Json → List Segment → Option Json
  | value, [] => some value
  | obj members, .field name :: path => (Entries.get? members name).bind (·.at? path)
  | arr elements, .index position :: path => elements[position]?.bind (·.at? path)
  | _, _ :: _ => none

theorem at?_field (doc : Entries Json) (key : String) :
    at? (obj doc) [.field key] = doc.get? key := by
  simp [at?]

theorem at?_element {doc : Entries Json} {key : String} {elements : List Json} {index : Nat}
    {members : List (String × Json)} (hget : doc.get? key = some (arr elements))
    (hindex : elements[index]? = some (obj members)) (subkey : String) :
    at? (obj doc) [.field key, .index index, .field subkey] = Entries.get? members subkey := by
  simp [at?, hget, hindex]

end Json

namespace Rejection

variable {rejection : Rejection} {slot given : Option Json} {value : Json}

theorem Refuses.cause_ne_notArray (h : rejection.Refuses slot) : rejection.cause ≠ .notArray := by
  intro hcause
  have hkind := h.kind
  simp [Rejection.kind, hcause, Cause.kind] at hkind

@[simp]
theorem cause_receivedFrom (rejection : Rejection) (given : Option Json) :
    (rejection.receivedFrom given).cause = rejection.cause := by
  unfold receivedFrom
  split <;> rfl

theorem truncated_of_received_receivedFrom
    (h : (rejection.receivedFrom given).received = some value) :
    given.map Json.truncated = some value := by
  unfold receivedFrom at h
  split at h
  . exact h
  . next hnone => simp [hnone] at h

end Rejection

namespace Field

variable [Engine] {field : Field} {doc : Entries Json} {index : Nat} {rejection : Rejection}
  {value : Json} {slot : Option Json}

theorem Faults.at?_path (h : field.Faults doc index rejection)
    (hreceived : rejection.received = some value) :
    ((Json.obj doc).at? rejection.path).map Json.truncated = some value := by
  cases h with
  | member _ hclean =>
    rw [← hreceived]
    simp only [Rejection.locate, Json.at?_field]
    exact (Definition.refuses_of_clean hclean).received.symm
  | notArray _ hget _ =>
    rw [← hreceived]
    simp only [Rejection.locate, Rejection.of, Json.at?_field, hget]
  | notObject => simp [Rejection.locate, Rejection.of] at hreceived
  | element _ hget hindex hclean =>
    rw [← hreceived]
    simp only [Rejection.locate, Json.at?_element hget hindex]
    exact (Definition.refuses_of_clean hclean).received.symm

theorem at?_path_of_member (hsub : field.path.sub? = none)
    (h : field.cleanSlot doc slot = .error rejection)
    (hreceived : rejection.received = some value) :
    ((Json.obj doc).at? rejection.path).map Json.truncated = some value ∧
      rejection.cause ≠ .notArray := by
  rw [cleanSlot_of_member hsub, Except.mapError_eq_error_iff] at h
  obtain ⟨_, hshown, rfl⟩ := h
  obtain ⟨fault, hclean, rfl⟩ := (Except.mapError_eq_error_iff _ _ _).mp hshown
  have hcause := (Definition.refuses_of_clean hclean).cause_ne_notArray
  simp only [Rejection.locate, Json.at?_field, Rejection.cause_receivedFrom] at hreceived ⊢
  exact ⟨Rejection.truncated_of_received_receivedFrom hreceived, hcause⟩

theorem cleanSlot_of_isScalar {sub : Word} (hsub : field.path.sub? = some sub)
    (hscalar : value.isScalar = true) :
    field.cleanSlot doc (some value) =
      .error ((Rejection.of .notArray (some value)).locate [.field field.path.prop.text]) := by
  unfold cleanSlot
  rw [hsub]
  cases value with
  | arr | obj | null => simp [Json.isScalar] at hscalar
  | _ => rfl

theorem slot_of_find? {fields : List Field} (nodup : fields.Nodup) (hsub : field.path.sub? = none)
    (hunique : ∀ other ∈ fields, other.path.sub? = none →
      other.path.prop.text = field.path.prop.text → other = field)
    (hfirst : fields.find? (·.path.prop = field.path.prop) = some field)
    (h : Update.chain (fields.map (·.update doc)) field.path.prop.text
      ((doc.get? field.path.prop.text).map Document.workingValue) = .ok slot) :
    (∃ written, field.definition.clean (doc.get? field.path.prop.text) = .ok (some written) ∧
      slot = some written) ∨ slot = none ∨ slot = some (.arr []) := by
  obtain ⟨before, after, rfl, hbefore, hafter⟩ := exists_append_of_find? nodup hunique hfirst
  rw [chain_append_of_forall_prop_ne hbefore, chain_cons_self] at h
  obtain ⟨next, hnext, hrest⟩ := h
  rw [cleanSlot_eq_ok_iff_of_member hsub, Definition.clean_workingValue] at hnext
  cases next with
  | some written =>
    have hscalar := Definition.isScalar_of_clean_eq_some hnext
    rw [chain_of_forall_prop_ne (prop_ne_of_chain_isScalar hscalar hafter hrest),
      Except.ok.injEq] at hrest
    exact Or.inl ⟨written, hnext, hrest.symm⟩
  | none =>
    right
    by_cases hexists : ∃ other ∈ after, other.path.prop.text = field.path.prop.text
    . rw [chain_eq_ok_iff_of_exists hafter hexists] at hrest
      obtain ⟨given, hgiven, harr⟩ := hrest
      obtain rfl := Option.some.inj hgiven
      obtain ⟨results, hresults, rfl⟩ := (chain_arr_eq_ok_iff hafter []).mp harr
      rw [List.forall₂_nil_left_iff.mp hresults]
      exact Or.inr rfl
    . have hprop : ∀ other ∈ after, other.path.prop.text ≠ field.path.prop.text := by
        simpa using hexists
      rw [chain_of_forall_prop_ne hprop, Except.ok.injEq] at hrest
      exact Or.inl hrest.symm

end Field

namespace Validator

section

variable [Engine]

/--
The fields of an array find another value than the caller gave: the first field of the name is that
of a member, and the value that it leaves there does not even look the same in a rejection.
-/
def Overwrites (validator : Validator) (doc : Entries Json) (key : String) : Prop :=
  ∃ field written, field.path.prop.text = key ∧ field.path.sub? = none ∧
    validator.fields.find? (·.path.prop = field.path.prop) = some field ∧
    field.definition.clean (doc.get? key) = .ok (some written) ∧
      (doc.get? key).map Json.truncated ≠ some written.truncated

variable {schema : Schema} {validator : Validator} {field member : Field} {sub : Word}
  {before after : List Field} {doc : Entries Json} {slot : Option Json} {rejection : Rejection}
  {value : Json}

theorem not_overwrites_of_array (hfields : validator.fields = before ++ field :: after)
    (hsub : field.path.sub? = some sub)
    (hbefore : ∀ other ∈ before, other.path.prop.text = field.path.prop.text →
      other.path.sub? ≠ none) :
    ¬ validator.Overwrites doc field.path.prop.text := by
  rintro ⟨first, _, hprop, hnone, hfind, _⟩
  rw [hfields, List.find?_append] at hfind
  cases hfirst : before.find? (·.path.prop = first.path.prop) with
  | some other =>
    rw [hfirst, Option.some_or, Option.some.injEq] at hfind
    subst hfind
    exact hbefore other (List.mem_of_find?_eq_some hfirst) hprop hnone
  | none =>
    have hself : field.path.prop = first.path.prop := (Word.text_inj.mp hprop).symm
    rw [hfirst, Option.none_or, List.find?_cons_of_pos (by simpa using hself),
      Option.some.injEq] at hfind
    rw [← hfind, hsub] at hnone
    simp at hnone

theorem overwrites_iff_of_find? {written : Json} (hsub : member.path.sub? = none)
    (hfirst : validator.fields.find? (·.path.prop = member.path.prop) = some member)
    (hclean : member.definition.clean (doc.get? member.path.prop.text) = .ok (some written)) :
    validator.Overwrites doc member.path.prop.text ↔
      (doc.get? member.path.prop.text).map Json.truncated ≠ some written.truncated := by
  constructor
  . rintro ⟨first, other, hprop, _, hfind, hother, hne⟩
    rw [Word.text_inj.mp hprop, hfirst, Option.some.injEq] at hfind
    subst hfind
    rw [hclean, Except.ok.injEq, Option.some.injEq] at hother
    exact hother ▸ hne
  . intro hne
    exact ⟨member, written, rfl, hsub, hfirst, hclean, hne⟩

theorem at?_path_of_array (compiled : ofSchema schema = .ok validator)
    (wellFormed : Json.WellFormed (.obj doc))
    (hfields : validator.fields = before ++ field :: after)
    (hsub : field.path.sub? = some sub)
    (hbefore : ∀ other ∈ before, other.path.prop.text = field.path.prop.text →
      other.path.sub? ≠ none)
    (hchain : Update.chain (before.map (·.update doc)) field.path.prop.text
      ((doc.get? field.path.prop.text).map Document.workingValue) = .ok slot)
    (hfault : field.cleanSlot doc slot = .error rejection)
    (hreceived : rejection.received = some value) :
    ((Json.obj doc).at? rejection.path).map Json.truncated = some value := by
  -- No member of the same name stands before the field, so that no field has written to the key.
  rw [Field.cleanSlot_eq_error_iff_of_chain hsub (path_notMem_of_append compiled hfields) hbefore
    wellFormed hchain, Field.cleanSlot_eq_error_iff] at hfault
  obtain ⟨index, hfault, _⟩ := hfault
  exact hfault.at?_path hreceived

theorem slot_of_member_mem (compiled : ofSchema schema = .ok validator)
    (hfields : validator.fields = before ++ after) (hmember : member ∈ before)
    (hsub : member.path.sub? = none)
    (hchain : Update.chain (before.map (·.update doc)) member.path.prop.text
      ((doc.get? member.path.prop.text).map Document.workingValue) = .ok slot) :
    validator.fields.find? (·.path.prop = member.path.prop) = some member ∧
      ((∃ written, member.definition.clean (doc.get? member.path.prop.text) = .ok (some written) ∧
        slot = some written) ∨ slot = none ∨ slot = some (.arr [])) := by
  have hmem : ∀ other ∈ before, other ∈ validator.fields := by
    intro other hother
    simp [hfields, hother]
  have hunique : ∀ other ∈ before, other.path.sub? = none →
      other.path.prop.text = member.path.prop.text → other = member := by
    intro other hother hnone htext
    exact field_eq_of_prop_eq compiled (hmem other hother) (hmem member hmember) hnone hsub htext
  have hnodup := nodup_fields compiled
  rw [hfields, List.nodup_append] at hnodup
  have hfirst := Field.find?_prop_of_chain hmember hsub hunique hchain
  constructor
  . rw [hfields, List.find?_append, hfirst, Option.some_or]
  . exact Field.slot_of_find? hnodup.1 hsub hunique hfirst hchain

theorem overwritten_of_member_mem (compiled : ofSchema schema = .ok validator)
    (hfields : validator.fields = before ++ after) (hmember : member ∈ before)
    (hmemberSub : member.path.sub? = none) (hprop : member.path.prop = field.path.prop)
    (hsub : field.path.sub? = some sub)
    (hchain : Update.chain (before.map (·.update doc)) field.path.prop.text
      ((doc.get? field.path.prop.text).map Document.workingValue) = .ok slot)
    (hfault : field.cleanSlot doc slot = .error rejection) :
    validator.fields.find? (·.path.prop = member.path.prop) = some member ∧ ∃ written,
      member.definition.clean (doc.get? member.path.prop.text) = .ok (some written) ∧
        rejection =
          (Rejection.of .notArray (some written)).locate [.field member.path.prop.text] := by
  rw [← hprop] at hchain
  obtain ⟨hfirst, ⟨written, hclean, rfl⟩ | rfl | rfl⟩ :=
    slot_of_member_mem compiled hfields hmember hmemberSub hchain
  . rw [Field.cleanSlot_of_isScalar hsub (Definition.isScalar_of_clean_eq_some hclean),
      Except.error.injEq, ← hprop] at hfault
    exact ⟨hfirst, written, hclean, hfault.symm⟩
  -- What is left of an omitted member is no fault for a field of the array.
  . simp [Field.cleanSlot, hsub] at hfault
  . simp [Field.cleanSlot, hsub, Field.cleanElements, Except.map] at hfault

theorem shown_or_overwritten (compiled : ofSchema schema = .ok validator)
    (wellFormed : Json.WellFormed (.obj doc))
    (hfields : validator.fields = before ++ field :: after)
    (hchain : Update.chain (before.map (·.update doc)) field.path.prop.text
      ((doc.get? field.path.prop.text).map Document.workingValue) = .ok slot)
    (hfault : field.cleanSlot doc slot = .error rejection)
    (hreceived : rejection.received = some value) :
    (((Json.obj doc).at? rejection.path).map Json.truncated = some value ∧
      ¬ (rejection.cause = .notArray ∧
        ∃ key, rejection.path = [.field key] ∧ validator.Overwrites doc key)) ∨
    ∃ member written, member.path.sub? = none ∧
      validator.fields.find? (·.path.prop = member.path.prop) = some member ∧
      member.definition.clean (doc.get? member.path.prop.text) = .ok (some written) ∧
      rejection =
        (Rejection.of .notArray (some written)).locate [.field member.path.prop.text] := by
  cases hsub : field.path.sub? with
  | none =>
    obtain ⟨hshown, hcause⟩ := Field.at?_path_of_member hsub hfault hreceived
    exact Or.inl ⟨hshown, fun h => hcause h.1⟩
  | some sub =>
    by_cases hmember : ∃ member ∈ before, member.path.prop.text = field.path.prop.text ∧
      member.path.sub? = none
    . obtain ⟨member, hmember, hprop, hnone⟩ := hmember
      obtain ⟨hfirst, written, hclean, hrejection⟩ := overwritten_of_member_mem compiled hfields
        hmember hnone (Word.text_inj.mp hprop) hsub hchain hfault
      exact Or.inr ⟨member, written, hnone, hfirst, hclean, hrejection⟩
    . have hbefore : ∀ other ∈ before, other.path.prop.text = field.path.prop.text →
          other.path.sub? ≠ none := by
        simpa using hmember
      refine Or.inl ⟨?_, ?_⟩
      . exact at?_path_of_array compiled wellFormed hfields hsub hbefore hchain hfault hreceived
      . rintro ⟨_, key, hpath, hover⟩
        have hhead := (Field.rejects_of_cleanSlot hfault).head?_path
        rw [hpath, List.head?_cons, Option.some.injEq, Segment.field.injEq] at hhead
        exact not_overwrites_of_array hfields hsub hbefore (hhead ▸ hover)

theorem at?_path_iff_of_cleanSlot (compiled : ofSchema schema = .ok validator)
    (wellFormed : Json.WellFormed (.obj doc))
    (hfields : validator.fields = before ++ field :: after)
    (hchain : Update.chain (before.map (·.update doc)) field.path.prop.text
      ((doc.get? field.path.prop.text).map Document.workingValue) = .ok slot)
    (hfault : field.cleanSlot doc slot = .error rejection)
    (hreceived : rejection.received = some value) :
    ((Json.obj doc).at? rejection.path).map Json.truncated = some value ↔
      ¬ (rejection.cause = .notArray ∧
        ∃ key, rejection.path = [.field key] ∧ validator.Overwrites doc key) := by
  obtain ⟨hshown, hnot⟩ | ⟨member, written, hsub, hfirst, hclean, rfl⟩ :=
    shown_or_overwritten compiled wellFormed hfields hchain hfault hreceived
  . exact iff_of_true hshown hnot
  . rw [← hreceived]
    simp only [Rejection.locate, Rejection.of, Json.at?_field, Option.map_some, List.cons.injEq,
      Segment.field.injEq, and_true, true_and, exists_eq_left',
      overwrites_iff_of_find? hsub hfirst hclean, ne_eq, not_not]

theorem received_given_iff (compiled : ofSchema schema = .ok validator)
    (wellFormed : Json.WellFormed (.obj doc))
    (h : validator.validate (.obj doc) = .error rejection)
    (hreceived : rejection.received = some value) :
    (∃ given, (Json.obj doc).at? rejection.path = some given ∧ given.truncated = value) ↔
      ¬ (rejection.cause = .notArray ∧
        ∃ key, rejection.path = [.field key] ∧ validator.Overwrites doc key) := by
  rw [← Option.map_eq_some_iff]
  obtain hrun | ⟨_, _, rfl⟩ := (validateObject_eq_error_iff validator doc rejection).mp h
  . obtain ⟨before, field, after, mid, hfields, hmid, hfault⟩ :=
      (Field.run_eq_error_iff _ _ _).mp hrun
    have hchain := Field.chain_of_run_workingCopy wellFormed.nodup hmid field.path.prop.text
    exact at?_path_iff_of_cleanSlot compiled wellFormed hfields hchain hfault hreceived
  . simp [Rejection.of] at hreceived

end

theorem received_given_text :
    ∃ validator rejection,
      ofSchema (.ofList [("p", .string {}), ("p.s", .integer {})]) = .ok validator ∧
      validator.validate (.obj [("p", .str "x")]) = .error rejection ∧
      rejection.received = some (.str "x") ∧
      ¬ (rejection.cause = .notArray ∧
        ∃ key, rejection.path = [.field key] ∧ validator.Overwrites [("p", .str "x")] key) := by
  have hcompiled : ofSchema (.ofList [("p", .string {}), ("p.s", .integer {})]) =
      .ok ⟨[⟨⟨⟨"p", by decide⟩, none⟩, .string {}⟩,
        ⟨⟨⟨"p", by decide⟩, some ⟨"s", by decide⟩⟩, .integer {}⟩]⟩ := by
    decide
  have hwell : Json.WellFormed (.obj [("p", .str "x")]) :=
    .obj (by decide) (List.forall_mem_singleton.mpr (.str "x"))
  have hrejected :
      validate ⟨[⟨⟨⟨"p", by decide⟩, none⟩, .string {}⟩,
          ⟨⟨⟨"p", by decide⟩, some ⟨"s", by decide⟩⟩, .integer {}⟩]⟩ (.obj [("p", .str "x")]) =
        .error ((Rejection.of .notArray (some (.str "x"))).locate [.field "p"]) := by
    decide
  have hgiven := (received_given_iff hcompiled hwell hrejected rfl).mp ⟨.str "x", rfl, rfl⟩
  exact ⟨_, _, hcompiled, hrejected, rfl, hgiven⟩

theorem overwritten_text_shown :
    ∃ validator rejection,
      ofSchema (.ofList [("p", .integer {}), ("p.s", .integer {})]) = .ok validator ∧
      validator.validate (.obj [("p", .str "3")]) = .error rejection ∧
      rejection.path = [.field "p"] ∧ rejection.received = some (.ofNat 3) ∧
      (Json.obj [("p", .str "3")]).at? rejection.path = some (.str "3") ∧
      Json.truncated (.str "3") ≠ .ofNat 3 := by
  refine ⟨⟨[⟨⟨⟨"p", by decide⟩, none⟩, .integer {}⟩,
    ⟨⟨⟨"p", by decide⟩, some ⟨"s", by decide⟩⟩, .integer {}⟩]⟩,
    (Rejection.of .notArray (some (.ofNat 3))).locate [.field "p"], by decide, ?_, rfl, rfl, rfl,
    by decide⟩
  decide +kernel

end Validator

end Intake
