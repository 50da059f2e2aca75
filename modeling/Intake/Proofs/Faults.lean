import Mathlib.Order.Nat
import Intake.Proofs.Refinement
import Intake.Proofs.Refusal

/-!
This module contains the faults of a document: what a field finds wrong with its place in the
document as it was given. The working copy hides and adds no faults, because what other fields have
made of it makes no difference to a field.
-/

namespace Intake

namespace Document

/--
An element of the document and what stands for it in the working copy, if that is the same for a
field of the array: both are objects with the same member, or neither is an object.
-/
def AgreesOn (sub : String) (given working : Json) : Prop :=
  (∃ members results, given = .obj members ∧ working = .obj results ∧
    Entries.get? results sub = Entries.get? members sub) ∨
  (∀ members, given ≠ .obj members) ∧ ∀ results, working ≠ .obj results

theorem agreesOn_workingElement (sub : String) (element : Json) :
    AgreesOn sub element (workingElement element) := by
  cases element with
  | obj members => exact Or.inl ⟨members, members, rfl, rfl, rfl⟩
  | _ =>
    right
    simp [workingElement]

end Document

namespace Field

variable [Engine]

inductive Faults (field : Field) (doc : Entries Json) : Nat → Rejection → Prop where
  | member {rejection : Rejection} (hsub : field.path.sub? = none)
      (hclean : field.definition.clean (doc.get? field.path.prop.text) = .error rejection) :
      Faults field doc 0 (rejection.locate [.field field.path.prop.text])
  | notArray {sub : Word} {value : Json} (hsub : field.path.sub? = some sub)
      (hget : doc.get? field.path.prop.text = some value)
      (hvalue : ∀ elements, value ≠ .arr elements) :
      Faults field doc 0
        ((Rejection.of .notArray (some value)).locate [.field field.path.prop.text])
  | notObject {sub : Word} {elements : List Json} {index : Nat} {element : Json}
      (hsub : field.path.sub? = some sub)
      (hget : doc.get? field.path.prop.text = some (.arr elements))
      (hindex : elements[index]? = some element) (helement : ∀ members, element ≠ .obj members) :
      Faults field doc index ((Rejection.of .notObject none).locate
        [.field field.path.prop.text, .index index, .field sub.text])
  | element {sub : Word} {elements : List Json} {index : Nat} {members : List (String × Json)}
      {rejection : Rejection} (hsub : field.path.sub? = some sub)
      (hget : doc.get? field.path.prop.text = some (.arr elements))
      (hindex : elements[index]? = some (.obj members))
      (hclean : field.definition.clean (Entries.get? members sub.text) = .error rejection) :
      Faults field doc index
        (rejection.locate [.field field.path.prop.text, .index index, .field sub.text])

def FirstFault (field : Field) (doc : Entries Json) (rejection : Rejection) : Prop :=
  ∃ index, field.Faults doc index rejection ∧ ∀ i < index, ∀ other, ¬ field.Faults doc i other

variable {field : Field} {sub : Word} {doc : Entries Json} {slot : Option Json}
  {rejection : Rejection}

theorem cleanElement_eq_error_iff (sub : String) (element : Json) :
    field.cleanElement sub element = .error rejection ↔
      (∃ members, element = .obj members ∧
        field.definition.clean (Entries.get? members sub) = .error rejection) ∨
      ((∀ members, element ≠ .obj members) ∧ rejection = .of .notObject none) := by
  cases element with
  | obj members => simp [cleanElement, Except.bind_eq_error_iff, pure, Except.pure]
  | _ => simp [cleanElement, eq_comm]

theorem cleanElements_cons_eq_error_iff (sub : String) (start : Nat) (head : Json)
    (tail : List Json) :
    field.cleanElements sub start (head :: tail) = .error rejection ↔
      (∃ fault, field.cleanElement sub head = .error fault ∧
        fault.locate (field.path.segments (some start)) = rejection) ∨
      (∃ cleaned, field.cleanElement sub head = .ok cleaned) ∧
        field.cleanElements sub (start + 1) tail = .error rejection := by
  simp only [cleanElements, Except.bind_eq_error_iff, Except.mapError_eq_error_iff,
    Except.mapError_eq_ok_iff]
  simp [pure, Except.pure]

theorem cleanElements_eq_error_iff (sub : String) (start : Nat) (given : List Json) :
    field.cleanElements sub start given = .error rejection ↔
      ∃ index element fault, given[index]? = some element ∧
        field.cleanElement sub element = .error fault ∧
        rejection = fault.locate (field.path.segments (some (start + index))) ∧
        ∀ i < index, ∀ other, given[i]? = some other →
          ∃ cleaned, field.cleanElement sub other = .ok cleaned := by
  induction given generalizing start with
  | nil => simp [cleanElements]
  | cons head tail ih =>
    rw [cleanElements_cons_eq_error_iff, ih]
    constructor
    . rintro (⟨fault, hfault, rfl⟩ |
        ⟨⟨cleaned, hcleaned⟩, index, element, fault, hindex, hfault, rfl, hbefore⟩)
      . exact ⟨0, head, fault, rfl, hfault, rfl, by simp⟩
      . refine ⟨index + 1, element, fault, hindex, hfault, ?_, ?_⟩
        . rw [Nat.add_assoc, Nat.add_comm 1]
        . intro i hi other hother
          cases i with
          | zero =>
            rw [List.getElem?_cons_zero, Option.some.injEq] at hother
            exact ⟨cleaned, hother ▸ hcleaned⟩
          | succ i => exact hbefore i (Nat.lt_of_succ_lt_succ hi) other hother
    . rintro ⟨index, element, fault, hindex, hfault, rfl, hbefore⟩
      cases index with
      | zero =>
        rw [List.getElem?_cons_zero, Option.some.injEq] at hindex
        exact Or.inl ⟨fault, hindex ▸ hfault, rfl⟩
      | succ index =>
        refine Or.inr ⟨hbefore 0 (Nat.succ_pos index) head rfl, index, element, fault, hindex,
          hfault, ?_, ?_⟩
        . rw [Nat.add_assoc, Nat.add_comm 1]
        . intro i hi other hother
          exact hbefore (i + 1) (Nat.succ_lt_succ hi) other hother

/-! The faults of a field, by what stands in its place. -/

theorem faults_iff_of_member (hsub : field.path.sub? = none) (index : Nat) :
    field.Faults doc index rejection ↔ index = 0 ∧ ∃ fault,
      field.definition.clean (doc.get? field.path.prop.text) = .error fault ∧
        fault.locate [.field field.path.prop.text] = rejection := by
  constructor
  . rintro (⟨_, hclean⟩ | ⟨hsome⟩ | ⟨hsome⟩ | ⟨hsome⟩)
    . exact ⟨rfl, _, hclean, rfl⟩
    all_goals simp [hsub] at hsome
  . rintro ⟨rfl, fault, hclean, rfl⟩
    exact .member hsub hclean

theorem faults_iff_of_arr {elements : List Json} (hsub : field.path.sub? = some sub)
    (hget : doc.get? field.path.prop.text = some (.arr elements)) (index : Nat) :
    field.Faults doc index rejection ↔ ∃ element fault, elements[index]? = some element ∧
      field.cleanElement sub.text element = .error fault ∧
        rejection = fault.locate (field.path.segments (some index)) := by
  have hsegments : field.path.segments (some index) =
      [.field field.path.prop.text, .index index, .field sub.text] := by
    simp [FieldPath.segments, hsub]
  simp only [cleanElement_eq_error_iff, hsegments]
  constructor
  . intro h
    cases h with
    | member hnone _ => simp [hsub] at hnone
    | notArray _ hvalue hne =>
      rw [hget, Option.some.injEq] at hvalue
      exact absurd hvalue.symm (hne elements)
    | notObject hsome hget' hindex helement =>
      obtain rfl := Option.some.inj (hsub.symm.trans hsome)
      obtain ⟨rfl⟩ := Option.some.inj (hget.symm.trans hget')
      exact ⟨_, _, hindex, Or.inr ⟨helement, rfl⟩, rfl⟩
    | element hsome hget' hindex hclean =>
      obtain rfl := Option.some.inj (hsub.symm.trans hsome)
      obtain ⟨rfl⟩ := Option.some.inj (hget.symm.trans hget')
      exact ⟨_, _, hindex, Or.inl ⟨_, rfl, hclean⟩, rfl⟩
  . rintro ⟨element, fault, hindex, ⟨members, rfl, hclean⟩ | ⟨helement, rfl⟩, rfl⟩
    . exact .element hsub hget hindex hclean
    . exact .notObject hsub hget hindex helement

theorem faults_iff_of_ne_arr {value : Json} (hsub : field.path.sub? = some sub)
    (hget : doc.get? field.path.prop.text = some value) (hvalue : ∀ elements, value ≠ .arr elements)
    (index : Nat) :
    field.Faults doc index rejection ↔ index = 0 ∧
      rejection = (Rejection.of .notArray (some value)).locate [.field field.path.prop.text] := by
  constructor
  . intro h
    cases h with
    | member hnone _ => simp [hsub] at hnone
    | notArray _ hget' _ =>
      rw [hget, Option.some.injEq] at hget'
      exact ⟨rfl, hget' ▸ rfl⟩
    | notObject _ hget' _ _ | element _ hget' _ _ =>
      rw [hget, Option.some.injEq] at hget'
      exact absurd hget' (hvalue _)
  . rintro ⟨rfl, rfl⟩
    exact .notArray hsub hget hvalue

theorem not_faults_of_absent (hsub : field.path.sub? = some sub)
    (hget : doc.get? field.path.prop.text = none) (index : Nat) :
    ¬ field.Faults doc index rejection := by
  rintro (⟨hnone, _⟩ | ⟨_, hget', _⟩ | ⟨_, hget', _, _⟩ | ⟨_, hget', _, _⟩)
  . simp [hsub] at hnone
  all_goals simp [hget] at hget'

theorem cleanSlot_eq_error_iff (field : Field) (doc : Entries Json) (rejection : Rejection) :
    field.cleanSlot doc (doc.get? field.path.prop.text) = .error rejection ↔
      field.FirstFault doc rejection := by
  unfold FirstFault cleanSlot
  cases hsub : field.path.sub? with
  | none =>
    have hsegments : field.path.segments none = [.field field.path.prop.text] := by
      simp [FieldPath.segments, hsub]
    simp only [faults_iff_of_member hsub, Except.mapError_eq_error_iff, hsegments]
    constructor
    . rintro ⟨fault, hfault, rfl⟩
      rw [(Definition.refuses_of_clean hfault).receivedFrom_self]
      exact ⟨0, ⟨rfl, fault, hfault, rfl⟩, by simp⟩
    . rintro ⟨_, ⟨rfl, fault, hfault, rfl⟩, _⟩
      refine ⟨fault, hfault, ?_⟩
      rw [(Definition.refuses_of_clean hfault).receivedFrom_self]
  | some sub =>
    dsimp only
    split
    . next elements hget =>
      -- The elements before the reported one have no faults, whatever is wrong with those after it.
      rw [Except.map_eq_error_iff, cleanElements_eq_error_iff]
      simp only [faults_iff_of_arr hsub hget, Nat.zero_add, Except.exists_eq_ok_iff]
      constructor
      . rintro ⟨index, element, fault, hindex, hfault, rfl, hbefore⟩
        refine ⟨index, ⟨element, fault, hindex, hfault, rfl⟩, ?_⟩
        rintro i hi _ ⟨other, fault', hother, hfault', _⟩
        exact hbefore i hi other hother fault' hfault'
      . rintro ⟨index, ⟨element, fault, hindex, hfault, rfl⟩, hbefore⟩
        refine ⟨index, element, fault, hindex, hfault, rfl, ?_⟩
        intro i hi other hother fault' hfault'
        exact hbefore i hi _ ⟨other, fault', hother, hfault', rfl⟩
    . next value hvalue hget =>
      have hne : ∀ elements, value ≠ .arr elements := by
        rintro elements rfl
        exact hvalue elements rfl
      simp only [faults_iff_of_ne_arr hsub hget hne, Except.error.injEq]
      constructor
      . rintro rfl
        exact ⟨0, ⟨rfl, rfl⟩, by simp⟩
      . rintro ⟨_, ⟨_, rfl⟩, _⟩
        rfl
    . next hget => simp [not_faults_of_absent hsub hget]

theorem exists_firstFault_iff (field : Field) (doc : Entries Json) :
    (∃ rejection, field.FirstFault doc rejection) ↔
      ∃ index rejection, field.Faults doc index rejection := by
  constructor
  . rintro ⟨rejection, index, hfault, _⟩
    exact ⟨index, rejection, hfault⟩
  . intro h
    classical
    obtain ⟨rejection, hfault⟩ := Nat.find_spec h
    refine ⟨rejection, Nat.find h, hfault, ?_⟩
    intro i hi other hother
    exact Nat.find_min h hi ⟨other, hother⟩

/-! What other fields have made of the place of a field hides and adds no faults. -/

theorem cleanElement_eq_error_iff_of_agreesOn {sub : String} {given working : Json}
    (h : Document.AgreesOn sub given working) :
    field.cleanElement sub working = .error rejection ↔
      field.cleanElement sub given = .error rejection := by
  rw [cleanElement_eq_error_iff, cleanElement_eq_error_iff]
  obtain ⟨members, results, rfl, rfl, hget⟩ | ⟨hgiven, hworking⟩ := h
  . simp [hget]
  . simp [hgiven, hworking]

theorem cleanElements_eq_error_iff_of_agreesOn {sub : String} {given working : List Json}
    (h : List.Forall₂ (Document.AgreesOn sub) given working) (start : Nat) :
    field.cleanElements sub start working = .error rejection ↔
      field.cleanElements sub start given = .error rejection := by
  induction h generalizing start with
  | nil => rfl
  | cons hhead _ ih =>
    simp only [cleanElements_cons_eq_error_iff, Except.exists_eq_ok_iff, ne_eq,
      cleanElement_eq_error_iff_of_agreesOn hhead, ih]

theorem cleanSlot_eq_error_iff_of_elements? {given results : List Json}
    (hsub : field.path.sub? = some sub) (hgiven : Document.elements? slot = some given)
    (h : List.Forall₂ (Document.AgreesOn sub.text) given results) :
    field.cleanSlot doc (some (.arr results)) = .error rejection ↔
      field.cleanSlot doc slot = .error rejection := by
  unfold Document.elements? at hgiven
  unfold cleanSlot
  rw [hsub]
  dsimp only
  rw [Except.map_eq_error_iff]
  split at hgiven
  . next elements =>
    rw [Option.some.injEq] at hgiven
    subst hgiven
    rw [Except.map_eq_error_iff]
    exact cleanElements_eq_error_iff_of_agreesOn h 0
  . simp at hgiven
  . rw [Option.some.injEq] at hgiven
    subst hgiven
    rw [List.forall₂_nil_left_iff.mp h]
    simp [cleanElements]

theorem cleanSlot_of_member (hsub : field.path.sub? = none) :
    field.cleanSlot doc slot =
      ((field.definition.clean slot).mapError
        (·.receivedFrom (doc.get? field.path.prop.text))).mapError
          (·.locate [.field field.path.prop.text]) := by
  simp only [cleanSlot, FieldPath.segments, hsub]
  cases field.definition.clean slot <;> rfl

theorem cleanSlot_workingValue_eq_error_iff (field : Field) (doc : Entries Json) :
    field.cleanSlot doc ((doc.get? field.path.prop.text).map Document.workingValue) =
        .error rejection ↔
      field.cleanSlot doc (doc.get? field.path.prop.text) = .error rejection := by
  cases hsub : field.path.sub? with
  | none =>
    rw [cleanSlot_of_member hsub, cleanSlot_of_member hsub,
      Definition.mapError_clean_workingValue]
    cases h : field.definition.clean (doc.get? field.path.prop.text) with
    | ok cleaned => rfl
    | error fault =>
      simp only [Except.mapError, (Definition.refuses_of_clean h).receivedFrom_self]
  | some sub =>
    cases hget : doc.get? field.path.prop.text with
    | none => rfl
    | some value =>
      cases value with
      | arr elements =>
        apply cleanSlot_eq_error_iff_of_elements? hsub rfl
        rw [List.forall₂_map_right_iff, List.forall₂_same]
        intro element _
        exact Document.agreesOn_workingElement sub.text element
      | _ => rfl

theorem agreesOn_of_foldlM {before : List Field} {key : String} {given result : Json}
    (hne : memberUpdates before key ≠ [])
    (hnot : key ++ "." ++ sub.text ∉ before.map (·.path.text))
    (nodup : ∀ members, given = .obj members → (Entries.keys members).Nodup)
    (h : (memberUpdates before key).foldlM Update.applyElement (Document.workingElement given) =
      .ok result) :
    Document.AgreesOn sub.text given result := by
  obtain ⟨members, cleaned, hgiven, hrun, rfl⟩ :=
    (Update.foldlM_applyElement_eq_ok_iff hne _ _).mp h
  obtain rfl := (Document.workingElement_eq_obj_iff given members).mp hgiven
  have hget := Update.get?_run (nodup members rfl) hrun sub.text
  -- None of the fields before cleans this member.
  have hself := @Validator.chain_memberUpdates_of_notMem _ ⟨before⟩ key sub.text hnot
    (Entries.get? members sub.text)
  rw [hself, Except.ok.injEq] at hget
  exact Or.inl ⟨members, cleaned, rfl, rfl, hget.symm⟩

theorem cleanSlot_eq_error_iff_of_chain {before : List Field}
    (hsub : field.path.sub? = some sub) (hnot : field.path.text ∉ before.map (·.path.text))
    (hsubs : ∀ other ∈ before, other.path.prop.text = field.path.prop.text →
      other.path.sub? ≠ none)
    (wellFormed : Json.WellFormed (.obj doc))
    (hchain : Update.chain (before.map (·.update doc)) field.path.prop.text
      ((doc.get? field.path.prop.text).map Document.workingValue) = .ok slot) :
    field.cleanSlot doc slot = .error rejection ↔
      field.cleanSlot doc (doc.get? field.path.prop.text) = .error rejection := by
  by_cases hexists : ∃ other ∈ before, other.path.prop.text = field.path.prop.text
  . -- The fields before have cleaned other members of the elements.
    rw [chain_eq_ok_iff_of_exists hsubs hexists] at hchain
    obtain ⟨working, hworking, hchain⟩ := hchain
    obtain ⟨results, hresults, rfl⟩ := (chain_arr_eq_ok_iff hsubs working).mp hchain
    rw [Document.elements?_workingValue, Option.map_eq_some_iff] at hworking
    obtain ⟨given, hgiven, rfl⟩ := hworking
    apply cleanSlot_eq_error_iff_of_elements? hsub hgiven
    have hne : memberUpdates before field.path.prop.text ≠ [] := by
      obtain ⟨other, hother, hprop⟩ := hexists
      obtain ⟨sub', hsub'⟩ := Option.ne_none_iff_exists'.mp (hsubs other hother hprop)
      rw [← hprop]
      exact memberUpdates_ne_nil hother hsub'
    rw [FieldPath.text_eq_of_sub?_eq_some hsub] at hnot
    rw [List.forall₂_map_left_iff] at hresults
    apply List.forall₂_imp_of_mem hresults
    intro element hmem result _ hresult
    apply agreesOn_of_foldlM hne hnot _ hresult
    rintro members rfl
    exact Document.nodup_of_elements? wellFormed hgiven hmem
  . have hprop : ∀ other ∈ before, other.path.prop.text ≠ field.path.prop.text := by
      simpa using hexists
    rw [chain_of_forall_prop_ne hprop, Except.ok.injEq] at hchain
    rw [← hchain]
    exact cleanSlot_workingValue_eq_error_iff field doc

end Field

end Intake
