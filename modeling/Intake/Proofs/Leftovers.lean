import Intake.Pattern.Engine
import Intake.Proofs.Run

/-!
This module contains what a document without faults is rejected for: the recorded keys that no field
claims. A field claims the key that is spelled like its path and no other, so a member and the
elements of the array of the same name are claimed apart from each other.
-/

namespace Intake

theorem Cause.message_unexpected (keys : List String) :
    (unexpected keys).message =
      (if keys.length ≤ 1 then "unexpected property: " else "unexpected properties: ") ++
        ", ".intercalate keys := by
  dsimp only [message]
  split
  . next h =>
    match keys with
    | [] => rfl
    | [key] => simp
  . rfl

namespace Unclaimed

variable {key path : String}

theorem mem_leftovers_claim_iff (unclaimed : Unclaimed) (h : key ≠ path) :
    key ∈ (unclaimed.claim path).leftovers ↔ key ∈ unclaimed.leftovers := by
  simp only [mem_leftovers_iff, claim, Entries.mem_keys_iff, Entries.mem_erase_of_ne _ h]

theorem claims_apart (unclaimed : Unclaimed) (prop sub : String) :
    (prop ∈ (unclaimed.claim (prop ++ "." ++ sub)).leftovers ↔ prop ∈ unclaimed.leftovers) ∧
    (prop ++ "." ++ sub ∈ (unclaimed.claim prop).leftovers ↔
      prop ++ "." ++ sub ∈ unclaimed.leftovers) := by
  have hne : prop ≠ prop ++ "." ++ sub := by
    intro h
    have hlength := congrArg String.length h
    simp only [String.length_append] at hlength
    have hdot : ".".length = 1 := rfl
    omega
  exact ⟨mem_leftovers_claim_iff unclaimed hne, mem_leftovers_claim_iff unclaimed hne.symm⟩

end Unclaimed

namespace Validator

section

variable [Engine]

def Passes (validator : Validator) (doc : Entries Json) : Prop :=
  ∃ progress, validator.fields.foldlM (fun progress field => field.apply doc progress)
    (Progress.ofDocument doc) = .ok progress

structure LeavesOver (validator : Validator) (doc : Entries Json) (keys : List String) : Prop where
  nodup : keys.Nodup
  mem_iff : ∀ key, key ∈ keys ↔ key ∈ Document.recordedKeys doc ∧ key ∉ validator.paths
  ordered : keys.Pairwise fun first second =>
    (Document.recordedKeys doc).idxOf first < (Document.recordedKeys doc).idxOf second

variable {validator : Validator} {doc : Entries Json}

theorem leavesOver_leftovers (validator : Validator) (doc : Entries Json) :
    validator.LeavesOver doc (validator.leftovers doc) := by
  have hfollows := (Unclaimed.covers_ofKeys (Document.recordedKeys doc)).foldl_claim
    validator.paths
  exact ⟨hfollows.nodup_leftovers, validator.mem_leftovers_iff doc, hfollows.pairwise_leftovers⟩

theorem passes_iff_exists_run :
    validator.Passes doc ↔
      ∃ copy, Update.run (validator.updates doc) (Document.workingCopy doc) = .ok copy := by
  unfold Passes
  rw [foldlM_apply_eq]
  simp only [Except.map_eq_ok_iff]
  constructor
  . rintro ⟨_, copy, hrun, _⟩
    exact ⟨copy, hrun⟩
  . rintro ⟨copy, hrun⟩
    exact ⟨_, copy, hrun, rfl⟩

theorem exists_validate_iff_of_passes (passes : validator.Passes doc) :
    (∃ out, validator.validate (.obj doc) = .ok out) ↔
      ∀ key ∈ Document.recordedKeys doc, key ∈ validator.paths := by
  simp only [validate_obj, validateObject_eq_ok_iff, exists_and_right,
    passes_iff_exists_run.mp passes, true_and]

theorem validate_of_passes (passes : validator.Passes doc)
    (h : ¬ ∀ key ∈ Document.recordedKeys doc, key ∈ validator.paths) :
    validator.validate (.obj doc) = .error (.of (.unexpected (validator.leftovers doc)) none) := by
  rw [validate_obj, validateObject_eq_error_iff]
  rw [← leftovers_eq_nil_iff] at h
  exact Or.inr ⟨passes_iff_exists_run.mp passes, h, rfl⟩

theorem leftovers_reported (passes : validator.Passes doc) :
    (∃ keys, validator.LeavesOver doc keys ∧
      ((∃ out, validator.validate (.obj doc) = .ok out) ↔
        ∀ key ∈ Document.recordedKeys doc, key ∈ validator.paths) ∧
      ((¬ ∀ key ∈ Document.recordedKeys doc, key ∈ validator.paths) →
        ∃ rejection, validator.validate (.obj doc) = .error rejection ∧
          rejection.kind = .unexpected keys ∧
          rejection.message =
            (if keys.length ≤ 1 then "unexpected property: " else "unexpected properties: ") ++
              ", ".intercalate keys)) ∧
    ∀ (unclaimed : Unclaimed) (prop sub : String),
      (prop ∈ (unclaimed.claim (prop ++ "." ++ sub)).leftovers ↔ prop ∈ unclaimed.leftovers) ∧
      (prop ++ "." ++ sub ∈ (unclaimed.claim prop).leftovers ↔
        prop ++ "." ++ sub ∈ unclaimed.leftovers) := by
  refine ⟨⟨validator.leftovers doc, ?_, ?_, ?_⟩, Unclaimed.claims_apart⟩
  . exact leavesOver_leftovers validator doc
  . exact exists_validate_iff_of_passes passes
  . intro h
    exact ⟨_, validate_of_passes passes h, rfl, Cause.message_unexpected _⟩

end

theorem leftovers_items :
    ∃ validator, ofSchema (.ofList [("items.x", .integer {})]) = .ok validator ∧
      validator.Passes [("b", .null), ("items", .arr [.obj [("y", .null), ("x", .str "4")],
        .obj [("z", .null), ("y", .null)]]), ("a", .null)] ∧
      validator.LeavesOver [("b", .null), ("items", .arr [.obj [("y", .null), ("x", .str "4")],
        .obj [("z", .null), ("y", .null)]]), ("a", .null)] ["b", "items.y", "items.z", "a"] := by
  have hpasses : Passes ⟨[⟨⟨⟨"items", by decide⟩, some ⟨"x", by decide⟩⟩, .integer {}⟩]⟩
      [("b", .null), ("items", .arr [.obj [("y", .null), ("x", .str "4")],
        .obj [("z", .null), ("y", .null)]]), ("a", .null)] :=
    (Except.isOk_iff _).mp (by decide +kernel)
  have hkeys : leftovers ⟨[⟨⟨⟨"items", by decide⟩, some ⟨"x", by decide⟩⟩, .integer {}⟩]⟩
      [("b", .null), ("items", .arr [.obj [("y", .null), ("x", .str "4")],
        .obj [("z", .null), ("y", .null)]]), ("a", .null)] = ["b", "items.y", "items.z", "a"] := by
    -- The keys that are left stand in the order of their places, so that sorting keeps them.
    unfold leftovers Unclaimed.leftovers
    rw [List.mergeSort_of_pairwise (by decide +kernel)]
    decide +kernel
  obtain ⟨⟨keys, hleaves, _, hreport⟩, _⟩ := leftovers_reported hpasses
  obtain ⟨rejection, hrejection, hkind, _⟩ := hreport (by decide +kernel)
  rw [validate_of_passes hpasses (by decide +kernel), hkeys, Except.error.injEq] at hrejection
  rw [← hrejection] at hkind
  obtain ⟨rfl⟩ := hkind
  exact ⟨_, by decide, hpasses, hleaves⟩

end Validator

end Intake
