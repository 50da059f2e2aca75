import Mathlib.Data.List.Perm.Basic
import Intake.Proofs.Run
import Intake.Proofs.WellFormed

namespace Option

variable {α : Type} {R : α → α → Prop} {slot slot' : Option α}

theorem rel_refl (hR : ∀ value, R value value) (slot : Option α) : Rel R slot slot := by
  cases slot with
  | some value => exact .some (hR value)
  | none => exact .none

theorem rel_eq_iff : Rel Eq slot slot' ↔ slot = slot' := by
  constructor
  . intro h
    cases h with
    | some heq => rw [heq]
    | none => rfl
  . rintro rfl
    exact rel_refl Eq.refl slot

theorem Rel.symm (hR : ∀ value value', R value value' → R value' value) (h : Rel R slot slot') :
    Rel R slot' slot := by
  cases h with
  | some hvalue => exact .some (hR _ _ hvalue)
  | none => exact .none

theorem Rel.map {β : Type} {S : β → β → Prop} {f : α → β} (h : Rel R slot slot')
    (hf : ∀ value value', R value value' → S (f value) (f value')) :
    Rel S (slot.map f) (slot'.map f) := by
  cases h with
  | some hvalue => exact .some (hf _ _ hvalue)
  | none => exact .none

end Option

namespace Intake

namespace Entries

variable {α : Type} {R : α → α → Prop} {entries entries' : Entries α} {key : String}

/--
Equal as maps, up to a relation between the values: no key is repeated, and the same keys have
related values.
-/
structure Agree (R : α → α → Prop) (entries entries' : Entries α) : Prop where
  nodup : entries.keys.Nodup
  nodup' : entries'.keys.Nodup
  get? : ∀ key, Option.Rel R (entries.get? key) (entries'.get? key)

theorem rel_get?_of_forall₂
    (h : List.Forall₂ (fun member member' => member.1 = member'.1 ∧ R member.2 member'.2)
      entries entries') (key : String) :
    Option.Rel R (entries.get? key) (entries'.get? key) := by
  induction h with
  | nil => exact .none
  | @cons member member' _ _ hmember _ ih =>
    rw [get?_cons, get?_cons, hmember.1]
    split
    . exact .some hmember.2
    . exact ih

theorem agree_of_perm_of_forall₂ (nodup : entries.keys.Nodup) {middle : Entries α}
    (hperm : entries.Perm middle)
    (h : List.Forall₂ (fun member member' => member.1 = member'.1 ∧ R member.2 member'.2)
      middle entries') : Agree R entries entries' := by
  have hkeys : middle.keys = entries'.keys := by
    rw [keys, keys, ← List.forall₂_eq_eq_eq, List.forall₂_map_left_iff, List.forall₂_map_right_iff]
    exact h.imp fun _ _ hmember => hmember.1
  refine ⟨nodup, ?_, ?_⟩
  . rw [← hkeys]
    exact (hperm.map Prod.fst).nodup_iff.mp nodup
  . intro key
    rw [get?_eq_of_perm nodup hperm]
    exact rel_get?_of_forall₂ h key

theorem agree_of_perm (nodup : entries.keys.Nodup) (h : entries.Perm entries') :
    Agree Eq entries entries' := by
  apply agree_of_perm_of_forall₂ nodup h
  rw [List.forall₂_same]
  simp

theorem Agree.get?_eq {entries entries' : Entries α} (h : Agree Eq entries entries')
    (key : String) : entries.get? key = entries'.get? key :=
  Option.rel_eq_iff.mp (h.get? key)

theorem Agree.exists_mem (h : Agree R entries entries') {value : α}
    (hmem : (key, value) ∈ entries) : ∃ value', (key, value') ∈ entries' ∧ R value value' := by
  have hrel := h.get? key
  rw [(get?_eq_some_iff h.nodup key value).mpr hmem] at hrel
  generalize hslot : entries'.get? key = slot at hrel
  cases hrel with
  | some hvalue => exact ⟨_, mem_of_get?_eq_some hslot, hvalue⟩

theorem Agree.mem_keys (h : Agree R entries entries') (hmem : key ∈ entries.keys) :
    key ∈ entries'.keys := by
  rw [mem_keys_iff] at hmem ⊢
  obtain ⟨value, hvalue⟩ := hmem
  obtain ⟨value', hvalue', _⟩ := h.exists_mem hvalue
  exact ⟨value', hvalue'⟩

theorem Agree.symm (hR : ∀ value value', R value value' → R value' value)
    (h : Agree R entries entries') : Agree R entries' entries :=
  ⟨h.nodup', h.nodup, fun key => (h.get? key).symm hR⟩

end Entries

namespace Field

theorem agree_store {R : Json → Json → Prop} {entries entries' : Entries Json}
    (h : Entries.Agree R entries entries') (key : String) {cleaned cleaned' : Option Json}
    (hcleaned : Option.Rel R cleaned cleaned') :
    Entries.Agree R (store entries key cleaned) (store entries' key cleaned') := by
  refine ⟨nodup_keys_store h.nodup key cleaned, nodup_keys_store h.nodup' key cleaned', ?_⟩
  intro other
  rw [get?_store h.nodup, get?_store h.nodup']
  split
  . exact hcleaned
  . exact h.get? other

end Field

namespace Json

inductive OnMembers (R : Entries Json → Entries Json → Prop) : Json → Json → Prop where
  | refl (value : Json) : OnMembers R value value
  | obj {members members' : Entries Json} (h : R members members') :
    OnMembers R (.obj members) (.obj members')

inductive OnElements (R : Entries Json → Entries Json → Prop) : Json → Json → Prop where
  | refl (value : Json) : OnElements R value value
  | arr {elements elements' : List Json} (h : List.Forall₂ (OnMembers R) elements elements') :
    OnElements R (.arr elements) (.arr elements')

abbrev ElementsAgree : Json → Json → Prop :=
  OnMembers (Entries.Agree Eq)

abbrev ValuesAgree : Json → Json → Prop :=
  OnElements (Entries.Agree Eq)

variable {R : Entries Json → Entries Json → Prop} {value value' : Json}

theorem OnMembers.symm (hR : ∀ members members', R members members' → R members' members)
    (h : OnMembers R value value') : OnMembers R value' value := by
  cases h with
  | refl => exact .refl value
  | obj hmembers => exact .obj (hR _ _ hmembers)

theorem OnElements.symm (hR : ∀ members members', R members members' → R members' members)
    (h : OnElements R value value') : OnElements R value' value := by
  cases h with
  | refl => exact .refl value
  | arr helements => exact .arr (helements.flip.imp fun _ _ helement => helement.symm hR)

theorem OnMembers.agree (wellFormed : value.WellFormed)
    (h : OnMembers List.Perm value value') : value.ElementsAgree value' := by
  cases h with
  | refl => exact .refl value
  | obj hperm => exact .obj (Entries.agree_of_perm wellFormed.nodup hperm)

theorem OnElements.agree (wellFormed : value.WellFormed)
    (h : OnElements List.Perm value value') : value.ValuesAgree value' := by
  cases h with
  | refl => exact .refl value
  | @arr elements elements' helements =>
    apply OnElements.arr
    have hwell : ∀ element ∈ elements, element.WellFormed := fun _ => wellFormed.of_mem_arr
    clear wellFormed
    induction helements with
    | nil => exact .nil
    | cons helement _ ih =>
      rw [List.forall_mem_cons] at hwell
      exact .cons (helement.agree hwell.1) (ih hwell.2)

end Json

namespace Document

/--
The documents that are left by moving keys, those of the document and those of the elements of its
arrays.
-/
def Rearranges (doc doc' : Entries Json) : Prop :=
  ∃ middle, doc.Perm middle ∧ List.Forall₂
    (fun member member' => member.1 = member'.1 ∧ Json.OnElements List.Perm member.2 member'.2)
    middle doc'

def Agree (doc doc' : Entries Json) : Prop :=
  Entries.Agree Json.ValuesAgree doc doc'

variable {doc doc' : Entries Json} {key : String}

theorem Rearranges.agree (wellFormed : Json.WellFormed (.obj doc)) (h : Rearranges doc doc') :
    Agree doc doc' := by
  obtain ⟨middle, hperm, hmembers⟩ := h
  apply Entries.agree_of_perm_of_forall₂ wellFormed.nodup hperm
  have hwell : ∀ member ∈ middle, Json.WellFormed member.2 := by
    intro member hmem
    exact wellFormed.of_mem_obj (hperm.mem_iff.mpr hmem)
  clear hperm
  induction hmembers with
  | nil => exact .nil
  | cons hmember _ ih =>
    rw [List.forall_mem_cons] at hwell
    exact .cons ⟨hmember.1, hmember.2.agree hwell.1⟩ (ih hwell.2)

theorem elementsAgree_workingElement {element element' : Json}
    (h : element.ElementsAgree element') :
    (workingElement element).ElementsAgree (workingElement element') := by
  cases h with
  | refl => exact .refl _
  | obj hmembers => exact .obj hmembers

theorem valuesAgree_workingValue {value value' : Json} (h : value.ValuesAgree value') :
    (workingValue value).ValuesAgree (workingValue value') := by
  cases h with
  | refl => exact .refl _
  | arr helements =>
    apply Json.OnElements.arr
    rw [List.forall₂_map_left_iff, List.forall₂_map_right_iff]
    exact helements.imp fun _ _ => elementsAgree_workingElement

theorem Agree.workingCopy (h : Agree doc doc') : Agree (workingCopy doc) (workingCopy doc') := by
  refine ⟨nodup_keys_workingCopy h.nodup, nodup_keys_workingCopy h.nodup', ?_⟩
  intro key
  rw [get?_workingCopy, get?_workingCopy]
  exact (h.get? key).map fun _ _ => valuesAgree_workingValue

theorem Agree.records (h : Agree doc doc') (hkey : Records doc key) : Records doc' key := by
  cases hkey with
  | member hmem hvalue =>
    obtain ⟨value', hmem', hagree⟩ := h.exists_mem hmem
    cases hagree with
    | refl => exact .member hmem' hvalue
    | arr _ => exact absurd rfl (hvalue _)
  | element hmem helement hsub =>
    obtain ⟨value', hmem', hagree⟩ := h.exists_mem hmem
    cases hagree with
    | refl => exact .element hmem' helement hsub
    | arr helements =>
      obtain ⟨element', helement', hagree⟩ := List.exists_mem_of_forall₂ helements.flip helement
      cases hagree with
      | refl => exact .element hmem' helement' hsub
      | obj hmembers => exact .element hmem' helement' (hmembers.mem_keys hsub)

theorem Agree.symm (h : Agree doc doc') : Agree doc' doc := by
  apply Entries.Agree.symm _ h
  intro value value' hvalue
  apply hvalue.symm
  intro members members' hmembers
  exact hmembers.symm fun _ _ => Eq.symm

end Document

end Intake
