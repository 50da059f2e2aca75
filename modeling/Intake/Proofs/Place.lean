import Intake.Pattern.Engine
import Intake.Proofs.Layout
import Intake.Proofs.Verdict

/-!
This module contains that the text of a place determines the place. Names are words, so the brackets
around an index and the point behind it stand where they end, and no part of the text has a space.
Therefore the text of a rejection can be split into the place and the message.
-/

namespace Intake

namespace Segment

inductive IsPlace : List Segment → Prop where
  | member {raw : String} {path : FieldPath} (h : FieldPath.parse raw = .ok path) :
      IsPlace [.field path.prop.text]
  | element {raw : String} {path : FieldPath} {sub : Word} (h : FieldPath.parse raw = .ok path)
      (hsub : path.sub? = some sub) (index : Nat) :
      IsPlace [.field path.prop.text, .index index, .field sub.text]

variable {place place' : List Segment} {c : Char}

theorem IsPlace.ne_nil (h : IsPlace place) : place ≠ [] := by
  cases h <;> simp

@[simp]
theorem pathText_member (name : String) : pathText [.field name] = name := by
  simp [pathText, appendTo]

theorem toList_pathText_element (name subname : String) (index : Nat) :
    (pathText [.field name, .index index, .field subname]).toList =
      name.toList ++ '[' :: (Nat.toDigits 10 index ++ ']' :: '.' :: subname.toList) := by
  simp [pathText, appendTo, String.toList_append]

theorem notMem_toDigits (index : Nat) (hc : ¬ IsWordChar c) : c ∉ Nat.toDigits 10 index :=
  fun hmem => hc (isWordChar_of_isDigit (Decimal.allDigits_toDigits index c hmem))

theorem IsPlace.notMem (h : IsPlace place) (hc : ¬ IsWordChar c) (hmark : c ∉ ['[', ']', '.']) :
    c ∉ (pathText place).toList := by
  cases h with
  | @member _ path _ =>
    rw [pathText_member]
    exact path.prop.isWord.notMem hc
  | @element _ path sub _ _ index =>
    rw [toList_pathText_element]
    have hprop := path.prop.isWord.notMem hc
    have hdigits := notMem_toDigits index hc
    have hsub := sub.isWord.notMem hc
    simp only [List.mem_cons, List.mem_append, not_or] at hmark ⊢
    exact ⟨hprop, hmark.1, hdigits, hmark.2.1, hmark.2.2.1, hsub⟩

theorem toDigits_inj {index index' : Nat} (h : Nat.toDigits 10 index = Nat.toDigits 10 index') :
    index = index' :=
  calc
    index = Nat.ofDigitChars 10 (Nat.toDigits 10 index) 0 := Nat.ofDigitChars_ten_toDigits.symm
    _ = Nat.ofDigitChars 10 (Nat.toDigits 10 index') 0 := by rw [h]
    _ = index' := Nat.ofDigitChars_ten_toDigits

theorem element_inj {prop prop' sub sub' : Word} {index index' : Nat}
    (h : pathText [.field prop.text, .index index, .field sub.text] =
      pathText [.field prop'.text, .index index', .field sub'.text]) :
    prop = prop' ∧ index = index' ∧ sub = sub' := by
  have hopen : ¬ IsWordChar '[' := by decide
  have hclose : ¬ IsWordChar ']' := by decide
  have hrest : '[' ∉ Nat.toDigits 10 index ++ ']' :: '.' :: sub.text.toList := by
    simp [notMem_toDigits index hopen, sub.isWord.notMem hopen]
  have htail : ']' ∉ '.' :: sub.text.toList := by
    simp [sub.isWord.notMem hclose]
  rw [← String.toList_inj, toList_pathText_element, toList_pathText_element,
    List.append_cons_inj_of_notMem (prop.isWord.notMem hopen) hrest,
    List.append_cons_inj_of_notMem (notMem_toDigits index hclose) htail] at h
  obtain ⟨hprop, _, hindex, _, hsub⟩ := h
  exact ⟨Word.text_inj.mp (String.toList_inj.mp hprop), toDigits_inj hindex,
    Word.text_inj.mp (String.toList_inj.mp (List.cons.inj hsub).2)⟩

theorem member_ne_element (prop prop' : Word) (subname : String) (index : Nat) :
    pathText [.field prop.text] ≠ pathText [.field prop'.text, .index index, .field subname] := by
  intro h
  rw [pathText_member, ← String.toList_inj, toList_pathText_element] at h
  apply prop.isWord.notMem (c := '[') (by decide)
  rw [h]
  exact List.mem_append_right _ List.mem_cons_self

theorem IsPlace.eq_of_pathText_eq (h : IsPlace place) (h' : IsPlace place')
    (htext : pathText place = pathText place') : place = place' := by
  cases h with
  | member _ =>
    cases h' with
    | member _ =>
      rw [pathText_member, pathText_member] at htext
      rw [htext]
    | element _ _ index => exact absurd htext (member_ne_element _ _ _ index)
  | element _ _ index =>
    cases h' with
    | member _ => exact absurd htext.symm (member_ne_element _ _ _ index)
    | element _ _ index' =>
      obtain ⟨hprop, rfl, rfl⟩ := element_inj htext
      rw [hprop]

end Segment

open Segment

theorem Field.Rejects.isPlace [Engine] {field : Field} {rejection : Rejection}
    (h : field.Rejects rejection) : IsPlace rejection.path := by
  have hparse := (FieldPath.parse_eq_ok_iff field.path.text field.path).mpr rfl
  cases h with
  | member | notArray => exact .member hparse
  | notObject hsub index | element hsub index => exact .element hparse hsub index

namespace Rejection

section

variable {rejection : Rejection}

theorem toList_text (h : rejection.path ≠ []) :
    rejection.text.toList = rejection.pathText.toList ++ ' ' :: rejection.message.toList := by
  unfold text
  rw [if_neg (by simpa using h), String.toList_append, String.toList_append, List.append_assoc]
  rfl

theorem split_text (h : IsPlace rejection.path) :
    rejection.text.toList.takeWhile (· ≠ ' ') = rejection.pathText.toList ∧
      rejection.text.toList.dropWhile (· ≠ ' ') = ' ' :: rejection.message.toList := by
  have hspace : ∀ c ∈ rejection.pathText.toList, decide (c ≠ ' ') = true := by
    intro c hc
    rw [decide_eq_true_eq]
    rintro rfl
    exact h.notMem (by decide) (by decide) hc
  rw [toList_text h.ne_nil, List.takeWhile_append_of_pos hspace,
    List.dropWhile_append_of_pos hspace]
  simp

variable [Engine]

theorem place_identified :
    (∀ validator doc rejection, Validator.validate validator (.obj doc) = .error rejection →
      (∃ keys, rejection.kind = .unexpected keys) ∨ IsPlace rejection.path) ∧
    (∀ place place', IsPlace place → IsPlace place' →
      Segment.pathText place = Segment.pathText place' → place = place') ∧
    (∀ place, IsPlace place → ' ' ∉ (Segment.pathText place).toList) ∧
    ∀ rejection : Rejection, IsPlace rejection.path →
      rejection.text.toList.takeWhile (· ≠ ' ') = rejection.pathText.toList ∧
        rejection.text.toList.dropWhile (· ≠ ' ') = ' ' :: rejection.message.toList := by
  refine ⟨?_, fun _ _ => IsPlace.eq_of_pathText_eq, ?_, fun _ => split_text⟩
  . intro validator doc rejection h
    generalize hvalue : Json.obj doc = value at h
    cases Validator.rejects_of_validate h with
    | notDocument hne => exact absurd hvalue.symm (hne doc)
    | field _ hfield => exact Or.inr hfield.isPlace
    | unexpected => exact Or.inl ⟨_, rfl⟩
  . intro place h
    exact h.notMem (by decide) (by decide)

end

theorem place_identified_items :
    ∃ validator rejection, Validator.ofSchema (.ofList [("n1.2", .integer {})]) = .ok validator ∧
      validator.validate (.obj [("n1", .arr [.obj [], .null])]) = .error rejection ∧
      IsPlace rejection.path ∧ rejection.text = "n1[1].2 must be an object" ∧
      rejection.text.toList.takeWhile (· ≠ ' ') = "n1[1].2".toList ∧
      rejection.text.toList.dropWhile (· ≠ ' ') = " must be an object".toList := by
  have hrejected :
      Validator.validate ⟨[⟨⟨⟨"n1", by decide⟩, some ⟨"2", by decide⟩⟩, .integer {}⟩]⟩
        (.obj [("n1", .arr [.obj [], .null])]) =
      .error ((Rejection.of .notObject none).locate [.field "n1", .index 1, .field "2"]) := by
    decide +kernel
  obtain ⟨hreport, _, _, hsplit⟩ := place_identified
  obtain ⟨_, hkind⟩ | hplace := hreport _ _ _ hrejected
  . simp [Cause.kind] at hkind
  . obtain ⟨htake, hdrop⟩ := hsplit _ hplace
    exact ⟨_, _, by decide, hrejected, hplace, by decide +kernel, htake.trans (by decide +kernel),
      hdrop⟩

end Rejection

end Intake
