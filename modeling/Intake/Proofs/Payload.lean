import Mathlib.Algebra.Group.Nat.Defs
import Intake.Pattern.Engine
import Intake.Proofs.Received

/-!
This module contains how large the value is that a rejection shows. Long texts, further elements and
large objects are cut off, but what is left is kept whole: the size of the first five elements of an
array, or of the members of a small object, is all that makes a rejection large.
-/

namespace Intake

namespace Json

mutual

def size : Json → Nat
  | null | bool _ | num _ => 1
  | str value => 1 + value.length
  | arr elements => 1 + sizeElements elements
  | obj members => 1 + sizeMembers members

def sizeElements : List Json → Nat
  | [] => 0
  | element :: rest => element.size + sizeElements rest

def sizeMembers : List (String × Json) → Nat
  | [] => 0
  | (key, value) :: rest => key.length + value.size + sizeMembers rest

end

/--
The size of what truncation keeps whole.
-/
def keptSize : Json → Nat
  | arr elements => sizeElements (elements.take 5)
  | obj members => if members.length ≤ 5 then sizeMembers members else 0
  | _ => 0

def count : Json → Nat
  | arr elements => elements.length
  | obj members => members.length
  | _ => 0

variable {value : Json}

theorem sizeElements_append (elements others : List Json) :
    sizeElements (elements ++ others) = sizeElements elements + sizeElements others := by
  induction elements with
  | nil => simp [sizeElements]
  | cons element rest ih =>
    rw [List.cons_append, sizeElements, sizeElements, ih, Nat.add_assoc]

theorem size_pos (value : Json) : 0 < value.size := by
  cases value with
  | null | bool | num => exact Nat.one_pos
  | str | arr | obj => exact Nat.add_pos_left Nat.one_pos _

theorem length_ellipsis_le (text : String) : (ellipsis 100 97 text).length ≤ 100 := by
  unfold ellipsis
  split
  . next h => exact h
  . have hdots : "...".length = 3 := rfl
    rw [String.length_append, String.length_ofList, List.length_take, hdots]
    omega

theorem length_natText_le {n : Nat} (h : n < 2 ^ 64) : (toString n).length ≤ 20 := by
  have hdigits : (Nat.toDigits 10 n).length ≤ 20 :=
    (Nat.length_toDigits_le_iff (by decide) (by decide)).mpr (Nat.lt_trans h (by decide))
  rw [Nat.toString_eq_repr, ← String.length_toList, Nat.toList_repr]
  exact hdigits

theorem keptSize_lt_size_truncated (value : Json) : value.keptSize < value.truncated.size := by
  cases value with
  | null | bool | num | str => exact size_pos _
  | arr elements =>
    unfold keptSize truncated
    dsimp only
    split
    . next h =>
      rw [List.take_of_length_le h, size]
      omega
    . rw [size, sizeElements_append]
      omega
  | obj members =>
    unfold keptSize truncated
    dsimp only
    split
    . rw [size]
      omega
    . exact size_pos _

theorem size_truncated_le (h : value.count < 2 ^ 64) :
    value.truncated.size ≤ value.keptSize + 101 := by
  cases value with
  | null | bool | num => simp [truncated, size]
  | str text =>
    have hlength := length_ellipsis_le text
    simp only [truncated, size]
    omega
  | arr elements =>
    have hcount : elements.length < 2 ^ 64 := h
    unfold keptSize truncated
    dsimp only
    split
    . next hle =>
      rw [List.take_of_length_le hle, size]
      omega
    . -- The element that counts those left out is the only one that is not in the array.
      have hdigits : (toString (elements.length - 5)).length ≤ 20 := length_natText_le (by omega)
      have hopen : "... (".length = 5 := rfl
      have hclose : " more)".length = 6 := rfl
      rw [size, sizeElements_append, sizeElements, sizeElements, size, String.length_append,
        String.length_append]
      omega
  | obj members =>
    unfold keptSize truncated
    dsimp only
    split
    . rw [size]
      omega
    . have hdigits : (toString members.length).length ≤ 20 := length_natText_le h
      have hopen : "Object(keys=".length = 12 := rfl
      have hclose : ")".length = 1 := rfl
      rw [size, String.length_append, String.length_append]
      omega

theorem keptSize_of_isScalar (h : value.isScalar = true) : value.keptSize = 0 := by
  cases value <;> simp_all [isScalar, keptSize]

theorem count_of_isScalar (h : value.isScalar = true) : value.count = 0 := by
  cases value <;> simp_all [isScalar, count]

def keptSizeAt (value : Json) (path : List Segment) : Nat :=
  (value.at? path).elim 0 keptSize

def countAt (value : Json) (path : List Segment) : Nat :=
  (value.at? path).elim 0 count

end Json

namespace Validator

variable {value shown : Json} {path : List Segment}

def ShowsKept (value : Json) (path : List Segment) (shown : Json) : Prop :=
  value.keptSizeAt path < shown.size ∧
    (value.countAt path < 2 ^ 64 → shown.size ≤ value.keptSizeAt path + 101)

theorem showsKept_of_at? (h : (value.at? path).map Json.truncated = some shown) :
    ShowsKept value path shown := by
  obtain ⟨given, hgiven, rfl⟩ := Option.map_eq_some_iff.mp h
  unfold ShowsKept Json.keptSizeAt Json.countAt
  rw [hgiven]
  exact ⟨given.keptSize_lt_size_truncated, Json.size_truncated_le⟩

section

variable [Engine] {schema : Schema} {validator : Validator} {doc : Entries Json}
  {rejection : Rejection}

theorem showsKept_of_clean {definition : Definition} {key : String} {written : Json}
    (h : definition.clean (doc.get? key) = .ok (some written)) :
    ShowsKept (.obj doc) [.field key] written.truncated := by
  have hwritten := Definition.isScalar_of_clean_eq_some h
  have hcount : written.count < 2 ^ 64 := by
    rw [Json.count_of_isScalar hwritten]
    decide
  have hsize := Json.size_truncated_le hcount
  rw [Json.keptSize_of_isScalar hwritten] at hsize
  have hkept : (Json.obj doc).keptSizeAt [.field key] = 0 := by
    unfold Json.keptSizeAt
    rw [Json.at?_field]
    cases hget : doc.get? key with
    | none => rfl
    | some given =>
      rw [hget] at h
      exact Json.keptSize_of_isScalar (Definition.isScalar_of_clean_some h)
  unfold ShowsKept
  rw [hkept]
  exact ⟨Json.size_pos _, fun _ => hsize⟩

theorem received_size (compiled : ofSchema schema = .ok validator)
    (wellFormed : Json.WellFormed value) (h : validator.validate value = .error rejection)
    (hreceived : rejection.received = some shown) :
    value.keptSizeAt rejection.path < shown.size ∧
      (value.countAt rejection.path < 2 ^ 64 →
        shown.size ≤ value.keptSizeAt rejection.path + 101) := by
  cases value with
  | obj doc =>
    obtain hrun | ⟨_, _, rfl⟩ := (validateObject_eq_error_iff validator doc rejection).mp h
    . obtain ⟨before, field, after, mid, hfields, hmid, hfault⟩ :=
        (Field.run_eq_error_iff _ _ _).mp hrun
      have hchain := Field.chain_of_run_workingCopy wellFormed.nodup hmid field.path.prop.text
      obtain ⟨hshown, _⟩ | ⟨member, written, _, _, hclean, rfl⟩ :=
        shown_or_overwritten compiled wellFormed hfields hchain hfault hreceived
      . exact showsKept_of_at? hshown
      . obtain rfl := Option.some.inj hreceived
        exact showsKept_of_clean hclean
    . simp [Rejection.of] at hreceived
  | null | bool | num | str | arr =>
    rw [validate, Except.error.injEq] at h
    . subst h
      exact showsKept_of_at? hreceived
    all_goals simp

end

theorem wellFormed_nested (text : String) : Json.WellFormed (.obj [("a", .arr [.str text])]) :=
  .obj (List.nodup_singleton "a")
    (List.forall_mem_singleton.mpr (.arr (List.forall_mem_singleton.mpr (.str text))))

theorem validate_nested (text : String) :
    validate ⟨[⟨⟨⟨"a", by decide⟩, none⟩, .string {}⟩]⟩ (.obj [("a", .arr [.str text])]) =
      .error ((Rejection.of (.notConvertible "array") (some (.arr [.str text]))).locate
        [.field "a"]) := by
  rfl

theorem keptSizeAt_nested (text : String) :
    (Json.obj [("a", .arr [.str text])]).keptSizeAt [.field "a"] = 1 + text.length := by
  unfold Json.keptSizeAt
  rw [Json.at?_field]
  rfl

theorem received_size_nested :
    ∃ validator rejection shown, ofSchema (.ofList [("a", .string {})]) = .ok validator ∧
      validator.validate (.obj [("a", .arr [.str (String.ofList (List.replicate 300 'x'))])]) =
        .error rejection ∧
      rejection.received = some shown ∧ 301 < shown.size ∧ shown.size ≤ 402 := by
  have hlength : (String.ofList (List.replicate 300 'x')).length = 300 := by
    rw [String.length_ofList, List.length_replicate]
  generalize String.ofList (List.replicate 300 'x') = text at hlength ⊢
  have hcompiled : ofSchema (.ofList [("a", .string {})]) =
      .ok ⟨[⟨⟨⟨"a", by decide⟩, none⟩, .string {}⟩]⟩ := by
    decide
  have hsize := received_size hcompiled (wellFormed_nested text) (validate_nested text) rfl
  have hkept := keptSizeAt_nested text
  have hcount : (Json.obj [("a", .arr [.str text])]).countAt [.field "a"] < 2 ^ 64 :=
    Nat.one_lt_two_pow (by decide)
  rw [hlength] at hkept
  rw [Rejection.locate, hkept] at hsize
  exact ⟨_, _, _, hcompiled, validate_nested text, rfl, hsize.1, hsize.2 hcount⟩

theorem received_unbounded :
    ¬ ∃ bound, ∀ schema validator value rejection shown, ofSchema schema = .ok validator →
      Json.WellFormed value → validator.validate value = .error rejection →
      rejection.received = some shown → shown.size ≤ bound := by
  rintro ⟨bound, hbound⟩
  have hsize := hbound (.ofList [("a", .string {})]) _ _ _ _ (by decide) (wellFormed_nested _)
    (validate_nested (String.ofList (List.replicate bound 'x'))) rfl
  simp [Json.truncated, Json.size, Json.sizeElements] at hsize
  omega

end Validator

end Intake
