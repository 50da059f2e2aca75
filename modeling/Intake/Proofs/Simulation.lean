import Intake.Proofs.Faults
import Intake.Proofs.Rearrangement

/-!
This module contains two runs side by side. If a field finds places that agree up to the order of
keys, it leaves places that agree, or it rejects both for the same reason; so does the run of all
fields.
-/

namespace Intake

namespace Rejection

def SameFault (rejection rejection' : Rejection) : Prop :=
  rejection.cause = rejection'.cause ∧ rejection.path = rejection'.path

variable {rejection rejection' : Rejection}

theorem sameFault_refl (rejection : Rejection) : rejection.SameFault rejection :=
  ⟨rfl, rfl⟩

theorem SameFault.locate (h : rejection.SameFault rejection') (path : List Segment) :
    (rejection.locate path).SameFault (rejection'.locate path) :=
  ⟨h.1, rfl⟩

theorem SameFault.receivedFrom (h : rejection.SameFault rejection') (given given' : Option Json) :
    (rejection.receivedFrom given).SameFault (rejection'.receivedFrom given') := by
  unfold Rejection.receivedFrom
  split
  . split
    . exact h
    . exact h
  . split
    . exact h
    . exact h

end Rejection

open Rejection

theorem Definition.rel_clean [Engine] (definition : Definition) {slot slot' : Option Json}
    (h : Option.Rel Json.ValuesAgree slot slot') :
    Except.Rel SameFault (Option.Rel Json.ValuesAgree) (definition.clean slot)
      (definition.clean slot') := by
  cases h with
  | none => exact Except.rel_refl sameFault_refl (Option.rel_refl Json.OnElements.refl) _
  | some hvalue =>
    cases hvalue with
    | refl => exact Except.rel_refl sameFault_refl (Option.rel_refl Json.OnElements.refl) _
    | arr _ =>
      rw [clean_arr, clean_arr]
      exact .error ⟨rfl, rfl⟩

namespace Field

variable [Engine] {field : Field} {doc doc' : Entries Json}

theorem rel_cleanElement (field : Field) (sub : String) {element element' : Json}
    (h : element.ElementsAgree element') :
    Except.Rel SameFault Json.ElementsAgree (field.cleanElement sub element)
      (field.cleanElement sub element') := by
  cases h with
  | refl => exact Except.rel_refl sameFault_refl Json.OnMembers.refl _
  | obj hmembers =>
    unfold cleanElement
    dsimp only
    rw [hmembers.get?_eq]
    apply Except.Rel.bind (Except.rel_refl sameFault_refl Eq.refl _)
    rintro cleaned _ rfl
    apply Except.Rel.ok
    apply Json.OnMembers.obj
    apply agree_store hmembers
    exact Option.rel_eq_iff.mpr rfl

theorem rel_cleanElements (field : Field) (sub : String) (index : Nat)
    {elements elements' : List Json} (h : List.Forall₂ Json.ElementsAgree elements elements') :
    Except.Rel SameFault (List.Forall₂ Json.ElementsAgree) (field.cleanElements sub index elements)
      (field.cleanElements sub index elements') := by
  induction h generalizing index with
  | nil => exact .ok .nil
  | cons helement _ ih =>
    unfold cleanElements
    apply Except.Rel.bind ((field.rel_cleanElement sub helement).mapError _)
    . intro result result' hresult
      apply Except.Rel.bind (ih (index + 1))
      intro results results' hresults
      exact .ok (.cons hresult hresults)
    . intro fault fault' hfault
      exact hfault.locate _

theorem rel_cleanSlot (field : Field) (doc doc' : Entries Json) {slot slot' : Option Json}
    (h : Option.Rel Json.ValuesAgree slot slot') :
    Except.Rel SameFault (Option.Rel Json.ValuesAgree) (field.cleanSlot doc slot)
      (field.cleanSlot doc' slot') := by
  unfold cleanSlot
  split
  . apply (field.definition.rel_clean h).mapError
    intro fault fault' hfault
    exact (hfault.receivedFrom _ _).locate _
  . next sub hsub =>
    cases h with
    | none => exact .ok (.some (.refl _))
    | some hvalue =>
      cases hvalue with
      | refl => exact Except.rel_refl sameFault_refl (Option.rel_refl Json.OnElements.refl) _
      | arr helements =>
        apply (field.rel_cleanElements sub.text 0 helements).map
        intro results results' hresults
        exact .some (.arr hresults)

theorem rel_apply (field : Field) (doc doc' : Entries Json) {copy copy' : Entries Json}
    (h : Document.Agree copy copy') :
    Except.Rel SameFault Document.Agree (Update.apply copy (field.update doc))
      (Update.apply copy' (field.update doc')) := by
  unfold Update.apply
  apply (field.rel_cleanSlot doc doc' (h.get? field.path.prop.text)).map
  intro cleaned cleaned' hcleaned
  exact agree_store h field.path.prop.text hcleaned

theorem rel_run (fields : List Field) (doc doc' : Entries Json) {copy copy' : Entries Json}
    (h : Document.Agree copy copy') :
    Except.Rel SameFault Document.Agree (Update.run (fields.map (·.update doc)) copy)
      (Update.run (fields.map (·.update doc')) copy') := by
  induction fields generalizing copy copy' with
  | nil => exact .ok h
  | cons field fields ih =>
    rw [List.map_cons, List.map_cons, Update.run_cons, Update.run_cons]
    apply (field.rel_apply doc doc' h).bind
    intro next next' hnext
    exact ih hnext

end Field

end Intake
