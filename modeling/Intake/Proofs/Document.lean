import Intake.Document
import Intake.Proofs.Entries

namespace Intake

namespace Document

/--
A member that is no array is recorded under its key. The members of the objects in an array are
recorded under the key of the array and their own.
-/
inductive Records (doc : Entries Json) : String → Prop where
  | member {key : String} {value : Json} (hmem : (key, value) ∈ doc)
      (hvalue : ∀ elements, value ≠ .arr elements) : Records doc key
  | element {key subkey : String} {elements : List Json} {members : List (String × Json)}
      (hmem : (key, .arr elements) ∈ doc) (helement : .obj members ∈ elements)
      (hsub : subkey ∈ Entries.keys members) : Records doc (key ++ "." ++ subkey)

theorem mem_elementKeys_iff (key recorded : String) (element : Json) :
    recorded ∈ elementKeys key element ↔ ∃ members, element = .obj members ∧
      ∃ subkey ∈ Entries.keys members, key ++ "." ++ subkey = recorded := by
  cases element with
  | obj members => simp [elementKeys, Entries.keys]
  | _ => simp [elementKeys]

theorem mem_memberKeys_iff (key recorded : String) (value : Json) :
    recorded ∈ memberKeys key value ↔
      ((∀ elements, value ≠ .arr elements) ∧ key = recorded) ∨
        ∃ elements, value = .arr elements ∧ ∃ members, .obj members ∈ elements ∧
          ∃ subkey ∈ Entries.keys members, key ++ "." ++ subkey = recorded := by
  cases value with
  | arr elements =>
    simp only [memberKeys, List.mem_flatMap, mem_elementKeys_iff]
    constructor
    . rintro ⟨_, hmem, members, rfl, hsub⟩
      exact Or.inr ⟨elements, rfl, members, hmem, hsub⟩
    . rintro (⟨hne, _⟩ | ⟨_, heq, members, hmem, hsub⟩)
      . exact absurd rfl (hne elements)
      . rw [Json.arr.injEq] at heq
        exact ⟨.obj members, heq ▸ hmem, members, rfl, hsub⟩
  | _ => simp [memberKeys, eq_comm]

theorem mem_recordedKeys_iff (doc : Entries Json) (recorded : String) :
    recorded ∈ recordedKeys doc ↔ Records doc recorded := by
  unfold recordedKeys
  rw [List.mem_flatMap]
  constructor
  . rintro ⟨⟨key, value⟩, hmem, h⟩
    rw [mem_memberKeys_iff] at h
    obtain ⟨hvalue, rfl⟩ | ⟨elements, rfl, members, helement, subkey, hsub, rfl⟩ := h
    . exact Records.member hmem hvalue
    . exact Records.element hmem helement hsub
  . intro h
    cases h with
    | member hmem hvalue =>
      refine ⟨_, hmem, ?_⟩
      rw [mem_memberKeys_iff]
      exact Or.inl ⟨hvalue, rfl⟩
    | element hmem helement hsub =>
      refine ⟨_, hmem, ?_⟩
      rw [mem_memberKeys_iff]
      exact Or.inr ⟨_, rfl, _, helement, _, hsub, rfl⟩

theorem workingValue_of_ne_arr {value : Json} (h : ∀ elements, value ≠ .arr elements) :
    workingValue value = value := by
  cases value with
  | arr elements => exact absurd rfl (h elements)
  | _ => rfl

theorem mem_workingCopy_iff (doc : Entries Json) (key : String) (value : Json) :
    (key, value) ∈ workingCopy doc ↔ ∃ given, (key, given) ∈ doc ∧ workingValue given = value := by
  simp only [workingCopy, List.mem_map, Prod.exists, Prod.mk.injEq]
  constructor
  . rintro ⟨_, given, hmem, rfl, heq⟩
    exact ⟨given, hmem, heq⟩
  . rintro ⟨given, hmem, heq⟩
    exact ⟨key, given, hmem, rfl, heq⟩

theorem get?_workingCopy (doc : Entries Json) (key : String) :
    (workingCopy doc).get? key = (doc.get? key).map workingValue :=
  Entries.get?_map workingValue doc key

theorem keys_workingCopy (doc : Entries Json) : (workingCopy doc).keys = doc.keys :=
  Entries.keys_map workingValue doc

theorem nodup_keys_workingCopy {doc : Entries Json} (nodup : doc.keys.Nodup) :
    (workingCopy doc).keys.Nodup := by
  rw [keys_workingCopy]
  exact nodup

end Document

end Intake
