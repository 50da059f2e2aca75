import Intake.Proofs.Document
import Intake.Proofs.Unclaimed
import Intake.Proofs.Update

/-!
This module contains validation as a sequence of updates of the working copy, one for each field. A
document is accepted if the updates succeed and every recorded key is the path of a field.
-/

namespace Intake

def Document.elements? : Option Json → Option (List Json)
  | some (.arr elements) => some elements
  | some _ => none
  | none => some []

namespace Field

variable [Engine]

def cleanSlot (field : Field) (doc : Entries Json) (slot : Option Json) :
    Except Rejection (Option Json) :=
  match field.path.sub? with
  | none =>
    (field.definition.clean slot).mapError fun rejection =>
      (rejection.receivedFrom (doc.get? field.path.prop.text)).locate (field.path.segments none)
  | some sub =>
    match slot with
    | some (.arr elements) => (field.cleanElements sub.text 0 elements).map (some ∘ .arr)
    | some value =>
      .error ((Rejection.of .notArray (some value)).locate [.field field.path.prop.text])
    | none => .ok (some (.arr []))

def update (field : Field) (doc : Entries Json) : Update where
  key := field.path.prop.text
  clean := field.cleanSlot doc

variable {field : Field} {sub : Word} {doc : Entries Json}

theorem apply_eq (progress : Progress) :
    field.apply doc progress =
      (Update.apply progress.copy (field.update doc)).map fun copy =>
        ⟨copy, progress.unclaimed.claim field.path.text⟩ := by
  unfold apply Progress.claim Update.apply update cleanSlot
  dsimp only
  cases field.path.sub? with
  | none =>
    dsimp only
    unfold cleanMember
    cases field.definition.clean (progress.copy.get? field.path.prop.text) <;> rfl
  | some sub =>
    dsimp only
    unfold cleanArray
    cases progress.copy.get? field.path.prop.text with
    | none => rfl
    | some value =>
      cases value with
      | arr elements =>
        dsimp only
        cases field.cleanElements sub.text 0 elements <;> rfl
      | _ => rfl

theorem cleanSlot_eq_ok_iff_of_member (h : field.path.sub? = none) (slot cleaned : Option Json) :
    field.cleanSlot doc slot = .ok cleaned ↔ field.definition.clean slot = .ok cleaned := by
  unfold cleanSlot
  rw [h]
  apply Except.mapError_eq_ok_iff

theorem cleanElements_eq_ok_iff (sub : String) (index : Nat) (given cleaned : List Json) :
    field.cleanElements sub index given = .ok cleaned ↔
      List.Forall₂ (fun element result => field.cleanElement sub element = .ok result)
        given cleaned := by
  induction given generalizing index cleaned with
  | nil =>
    rw [List.forall₂_nil_left_iff, cleanElements, Except.ok.injEq]
    exact eq_comm
  | cons element rest ih =>
    rw [List.forall₂_cons_left_iff, cleanElements]
    simp only [Except.bind_eq_ok_iff, Except.pure_eq_ok_iff, Except.mapError_eq_ok_iff, ih]
    constructor
    . rintro ⟨result, hresult, results, hresults, rfl⟩
      exact ⟨result, results, hresult, hresults, rfl⟩
    . rintro ⟨result, results, hresult, hresults, rfl⟩
      exact ⟨result, hresult, results, hresults, rfl⟩

theorem cleanSlot_eq_ok_iff_of_array (h : field.path.sub? = some sub)
    (slot cleaned : Option Json) :
    field.cleanSlot doc slot = .ok cleaned ↔
      ∃ given results, Document.elements? slot = some given ∧
        List.Forall₂ (fun element result => field.cleanElement sub.text element = .ok result)
          given results ∧ cleaned = some (.arr results) := by
  unfold cleanSlot
  rw [h]
  dsimp only
  split
  . next elements =>
    rw [Except.map_eq_ok_iff]
    simp only [cleanElements_eq_ok_iff, Function.comp, Document.elements?, Option.some.injEq]
    constructor
    . rintro ⟨results, hresults, rfl⟩
      exact ⟨elements, results, rfl, hresults, rfl⟩
    . rintro ⟨given, results, rfl, hresults, rfl⟩
      exact ⟨results, hresults, rfl⟩
  . next value hvalue =>
    have hnone : Document.elements? (some value) = none := by
      cases value with
      | arr elements => exact absurd rfl (hvalue elements)
      | _ => rfl
    simp [hnone]
  . simp [Document.elements?, eq_comm]

theorem cleanSlot_eq_ok_iff_of_doc (doc doc' : Entries Json) (slot cleaned : Option Json) :
    field.cleanSlot doc slot = .ok cleaned ↔ field.cleanSlot doc' slot = .ok cleaned := by
  -- The document only shows up in rejections.
  cases h : field.path.sub? with
  | none => rw [cleanSlot_eq_ok_iff_of_member h, cleanSlot_eq_ok_iff_of_member h]
  | some sub => rw [cleanSlot_eq_ok_iff_of_array h, cleanSlot_eq_ok_iff_of_array h]

variable {fields before after : List Field} {key : String} {slot cleaned : Option Json}

theorem chain_cons_self (field : Field) (fields : List Field) (slot : Option Json) :
    Update.chain ((field :: fields).map (·.update doc)) field.path.prop.text slot = .ok cleaned ↔
      ∃ next, field.cleanSlot doc slot = .ok next ∧
        Update.chain (fields.map (·.update doc)) field.path.prop.text next = .ok cleaned :=
  Update.chain_cons_self slot cleaned

theorem chain_cons_of_ne (h : field.path.prop.text ≠ key) (fields : List Field)
    (slot : Option Json) :
    Update.chain ((field :: fields).map (·.update doc)) key slot =
      Update.chain (fields.map (·.update doc)) key slot :=
  Update.chain_cons_of_ne h slot

theorem key_ne_of_forall_prop_ne (h : ∀ field ∈ fields, field.path.prop.text ≠ key) :
    ∀ update ∈ fields.map (·.update doc), update.key ≠ key := by
  intro update hmem
  obtain ⟨field, hfield, rfl⟩ := List.mem_map.mp hmem
  exact h field hfield

theorem chain_of_forall_prop_ne (h : ∀ field ∈ fields, field.path.prop.text ≠ key)
    (slot : Option Json) : Update.chain (fields.map (·.update doc)) key slot = .ok slot :=
  Update.chain_of_notMem (key_ne_of_forall_prop_ne h) slot

theorem chain_append_of_forall_prop_ne (h : ∀ other ∈ before, other.path.prop.text ≠ key) :
    Update.chain ((before ++ after).map (·.update doc)) key slot = .ok cleaned ↔
      Update.chain (after.map (·.update doc)) key slot = .ok cleaned := by
  rw [List.map_append, Update.chain_append]
  simp [chain_of_forall_prop_ne h]

theorem chain_eq_ok_iff_of_doc (doc doc' : Entries Json) (fields : List Field)
    (slot : Option Json) :
    Update.chain (fields.map (·.update doc)) key slot = .ok cleaned ↔
      Update.chain (fields.map (·.update doc')) key slot = .ok cleaned := by
  induction fields generalizing slot with
  | nil => rfl
  | cons field fields ih =>
    by_cases h : field.path.prop.text = key
    . subst h
      rw [chain_cons_self, chain_cons_self]
      simp only [cleanSlot_eq_ok_iff_of_doc doc doc', ih]
    . rw [chain_cons_of_ne h, chain_cons_of_ne h]
      exact ih slot

theorem chain_of_run_workingCopy (nodup : doc.keys.Nodup) {mid : Entries Json}
    (h : Update.run (fields.map (·.update doc)) (Document.workingCopy doc) = .ok mid)
    (key : String) :
    Update.chain (fields.map (·.update doc)) key ((doc.get? key).map Document.workingValue) =
      .ok (mid.get? key) := by
  rw [← Document.get?_workingCopy]
  exact Update.get?_run (Document.nodup_keys_workingCopy nodup) h key

theorem run_eq_ok_iff_of_append_cons (field : Field) (entries out : Entries Json) :
    Update.run ((before ++ field :: after).map (·.update doc)) entries = .ok out ↔
      ∃ mid next, Update.run (before.map (·.update doc)) entries = .ok mid ∧
        Update.apply mid (field.update doc) = .ok next ∧
        Update.run (after.map (·.update doc)) next = .ok out := by
  rw [List.map_append, List.map_cons, Update.run, List.foldlM_append, Except.bind_eq_ok_iff]
  constructor
  . rintro ⟨mid, hmid, hrest⟩
    obtain ⟨next, hnext, hout⟩ := Update.run_cons_eq_ok_iff.mp hrest
    exact ⟨mid, next, hmid, hnext, hout⟩
  . rintro ⟨mid, next, hmid, hnext, hout⟩
    exact ⟨mid, hmid, Update.run_cons_eq_ok_iff.mpr ⟨next, hnext, hout⟩⟩

theorem run_eq_error_iff (fields : List Field) (entries : Entries Json) (rejection : Rejection) :
    Update.run (fields.map (·.update doc)) entries = .error rejection ↔
      ∃ before field after mid, fields = before ++ field :: after ∧
        Update.run (before.map (·.update doc)) entries = .ok mid ∧
        field.cleanSlot doc (mid.get? field.path.prop.text) = .error rejection := by
  simp only [Update.run, List.foldlM_map, Except.foldlM_eq_error_iff, Update.apply,
    Except.map_eq_error_iff]
  rfl

end Field

namespace Validator

variable [Engine]

def updates (validator : Validator) (doc : Entries Json) : List Update :=
  validator.fields.map (·.update doc)

theorem foldlM_apply_eq (fields : List Field) (doc : Entries Json) (progress : Progress) :
    fields.foldlM (fun progress field => field.apply doc progress) progress =
      (Update.run (fields.map (·.update doc)) progress.copy).map fun copy =>
        ⟨copy, (fields.map (·.path.text)).foldl Unclaimed.claim progress.unclaimed⟩ := by
  induction fields generalizing progress with
  | nil => rfl
  | cons field fields ih =>
    rw [List.foldlM_cons, Field.apply_eq, List.map_cons, List.map_cons, Update.run_cons]
    cases Update.apply progress.copy (field.update doc) with
    | error rejection => rfl
    | ok copy => exact ih ⟨copy, progress.unclaimed.claim field.path.text⟩

def leftovers (validator : Validator) (doc : Entries Json) : List String :=
  (validator.paths.foldl Unclaimed.claim (.ofKeys (Document.recordedKeys doc))).leftovers

theorem mem_leftovers_iff (validator : Validator) (doc : Entries Json) (key : String) :
    key ∈ validator.leftovers doc ↔ key ∈ Document.recordedKeys doc ∧ key ∉ validator.paths := by
  have hcovers := Unclaimed.covers_ofKeys (Document.recordedKeys doc)
  rw [leftovers, Unclaimed.mem_leftovers_iff, hcovers.mem_keys_foldl_claim_iff]
  exact and_congr_left' ⟨hcovers.mem key, hcovers.complete key⟩

theorem leftovers_eq_nil_iff (validator : Validator) (doc : Entries Json) :
    validator.leftovers doc = [] ↔ ∀ key ∈ Document.recordedKeys doc, key ∈ validator.paths := by
  simp [List.eq_nil_iff_forall_not_mem, mem_leftovers_iff]

theorem validateObject_eq (validator : Validator) (doc : Entries Json) :
    validator.validateObject doc =
      Update.run (validator.updates doc) (Document.workingCopy doc) >>= fun copy =>
        if validator.leftovers doc = [] then .ok copy
        else .error (.of (.unexpected (validator.leftovers doc)) none) := by
  have hcopy : (Progress.ofDocument doc).copy = Document.workingCopy doc := rfl
  unfold validateObject
  simp only [foldlM_apply_eq, Unclaimed.isEmpty_iff, hcopy]
  unfold updates
  cases Update.run (validator.fields.map (·.update doc)) (Document.workingCopy doc) with
  | error rejection => rfl
  | ok copy => rfl

theorem validateObject_eq_ok_iff (validator : Validator) (doc out : Entries Json) :
    validator.validateObject doc = .ok out ↔
      Update.run (validator.updates doc) (Document.workingCopy doc) = .ok out ∧
        ∀ key ∈ Document.recordedKeys doc, key ∈ validator.paths := by
  rw [validateObject_eq, Except.bind_eq_ok_iff, ← leftovers_eq_nil_iff]
  constructor
  . rintro ⟨copy, hrun, hleft⟩
    split at hleft
    . next hnil =>
      rw [Except.ok.injEq] at hleft
      exact ⟨hleft ▸ hrun, hnil⟩
    . simp at hleft
  . rintro ⟨hrun, hnil⟩
    exact ⟨out, hrun, if_pos hnil⟩

theorem validateObject_eq_error_iff (validator : Validator) (doc : Entries Json)
    (rejection : Rejection) :
    validator.validateObject doc = .error rejection ↔
      Update.run (validator.updates doc) (Document.workingCopy doc) = .error rejection ∨
      (∃ copy, Update.run (validator.updates doc) (Document.workingCopy doc) = .ok copy) ∧
        validator.leftovers doc ≠ [] ∧
          rejection = .of (.unexpected (validator.leftovers doc)) none := by
  rw [validateObject_eq, Except.bind_eq_error_iff, ← exists_and_right]
  apply or_congr_right
  apply exists_congr
  intro copy
  apply and_congr_right
  intro _
  split
  . next hnil => simp [hnil]
  . next hne => simp [hne, eq_comm]

theorem validate_obj (validator : Validator) (doc : Entries Json) :
    validator.validate (.obj doc) = validator.validateObject doc := rfl

def slot (validator : Validator) (doc : Entries Json) (key : String) :
    Except Rejection (Option Json) :=
  Update.chain (validator.updates doc) key ((doc.get? key).map Document.workingValue)

theorem exists_validateObject_iff (validator : Validator) {doc : Entries Json}
    (nodup : doc.keys.Nodup) :
    (∃ out, validator.validateObject doc = .ok out) ↔
      (∀ key, ∃ cleaned, validator.slot doc key = .ok cleaned) ∧
      ∀ key, Document.Records doc key → key ∈ validator.paths := by
  simp only [validateObject_eq_ok_iff, exists_and_right,
    Update.exists_run_iff (Document.nodup_keys_workingCopy nodup), slot,
    Document.get?_workingCopy, Document.mem_recordedKeys_iff]

variable {validator : Validator} {doc out : Entries Json} {key : String}

theorem slot_of_validateObject (nodup : doc.keys.Nodup)
    (h : validator.validateObject doc = .ok out) (key : String) :
    validator.slot doc key = .ok (out.get? key) := by
  rw [validateObject_eq_ok_iff] at h
  exact Field.chain_of_run_workingCopy nodup h.1 key

theorem nodup_of_validateObject (nodup : doc.keys.Nodup)
    (h : validator.validateObject doc = .ok out) : out.keys.Nodup := by
  rw [validateObject_eq_ok_iff] at h
  exact Update.nodup_keys_run (Document.nodup_keys_workingCopy nodup) h.1

theorem mem_paths_of_validateObject (h : validator.validateObject doc = .ok out)
    (hkey : Document.Records doc key) : key ∈ validator.paths := by
  rw [validateObject_eq_ok_iff] at h
  exact h.2 key ((Document.mem_recordedKeys_iff doc key).mpr hkey)

end Validator

end Intake
