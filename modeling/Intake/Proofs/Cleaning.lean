import Intake.Definition
import Intake.Document
import Intake.Proofs.Outcome

namespace Intake

namespace Json

def isScalar : Json → Bool
  | bool _ | num _ | str _ => true
  | _ => false

end Json

namespace Layout

theorem ofDecimal_ne_nil (layout : Layout) (d : Decimal) : layout.ofDecimal d ≠ [] := by
  have hdigits : d.digitChars ≠ [] := Nat.toDigits_ne_nil
  unfold ofDecimal
  dsimp only
  split
  . simp [hdigits]
  . split
    . simp
    . split
      . simp
      . simp [scientific]

theorem ofFinite_ne_empty (x : Finite) : Layout.text.ofFinite x ≠ "" := by
  unfold ofFinite
  split
  . split <;> decide
  . dsimp only
    intro h
    rw [← String.toList_inj, String.toList_ofList] at h
    split at h
    . simp at h
    . exact ofDecimal_ne_nil _ _ h

end Layout

namespace Coercion

theorem text_eq_empty_iff {slot : Option Json} :
    text slot = .ok "" ↔ slot = none ∨ slot = some (.str "") := by
  unfold text
  split
  . simp
  . simp
  . next value => cases value <;> simp <;> decide
  . next value _ _ =>
    have hne : value.repr ≠ "" := by
      rw [Int.repr_eq_if]
      split
      . exact Nat.repr_ne_empty
      . simp
    simp [hne]
  . next value => simp [Double.text, Layout.ofFinite_ne_empty]
  . next value _ hstr _ _ _ =>
    simp only [reduceCtorEq, false_or, Option.some.injEq, false_iff]
    exact hstr ""

theorem isScalar_of_text {value : Json} {converted : String}
    (h : text (some value) = .ok converted) : value.isScalar = true := by
  cases value with
  | null | arr | obj => simp [text] at h
  | _ => rfl

theorem isScalar_of_boolean {value : Json} {converted : Bool}
    (h : boolean (some value) = .ok converted) : value.isScalar = true := by
  cases value with
  | null | arr | obj => simp [boolean] at h
  | _ => rfl

theorem isScalar_of_numeric {value : Json} {converted : Double × Json}
    (h : numeric (some value) = .ok converted) : value.isScalar = true := by
  cases value with
  | null | arr | obj => simp [numeric] at h
  | _ => rfl

theorem emit_eq_ok_iff (n : Double) (found : Option Json) (kept : Json) :
    emit n found = .ok kept ↔ n.toJson? = some kept := by
  unfold emit
  split
  . next value heq => simp [heq]
  . next heq => simp [heq]

theorem number_of_toJson? {n : Double} {kept : Json} (h : n.toJson? = some kept) :
    ∃ number, kept = .num number := by
  unfold Double.toJson? at h
  split at h
  . rw [Option.some.injEq] at h
    exact ⟨_, h.symm⟩
  . split at h
    . rw [Option.some.injEq] at h
      exact ⟨_, h.symm⟩
    . simp at h

theorem kept_of_numeric {slot : Option Json} {n : Double} {kept : Json}
    (h : numeric slot = .ok (n, kept)) :
    (∃ value least below, n = .ofInt value ∧ kept = .num (.int value least below) ∧
      slot = some kept) ∨ n.toJson? = some kept := by
  unfold numeric at h
  split at h
  . rw [Except.ok.injEq, Prod.mk.injEq] at h
    right
    rw [← h.1, ← h.2]
    decide +kernel
  . next value least below =>
    rw [Except.ok.injEq, Prod.mk.injEq] at h
    exact Or.inl ⟨value, least, below, h.1.symm, h.2.symm, congrArg some h.2⟩
  . obtain ⟨value, hemit, heq⟩ := (Except.map_eq_ok_iff _ _ _).mp h
    rw [Prod.mk.injEq] at heq
    rw [← heq.1, ← heq.2]
    exact Or.inr ((emit_eq_ok_iff _ _ _).mp hemit)
  . dsimp only at h
    split at h
    . obtain ⟨value, hemit, heq⟩ := (Except.map_eq_ok_iff _ _ _).mp h
      rw [Prod.mk.injEq] at heq
      rw [← heq.1, ← heq.2]
      exact Or.inr ((emit_eq_ok_iff _ _ _).mp hemit)
    . simp at h
  . simp at h

theorem number_of_numeric {slot : Option Json} {n : Double} {kept : Json}
    (h : numeric slot = .ok (n, kept)) : ∃ number, kept = .num number := by
  obtain ⟨value, least, below, _, rfl, _⟩ | hjson := kept_of_numeric h
  . exact ⟨_, rfl⟩
  . exact number_of_toJson? hjson

end Coercion

theorem TextRule.check_eq_ok_iff [Engine] (rule : TextRule) (text : String)
    (found cleaned : Option Json) :
    rule.check text found = .ok cleaned ↔
      (∀ pattern, rule.pattern = some pattern → pattern.isMatch text = true) ∧
        cleaned = if rule.omitEmpty && text = "" then none else some (.str text) := by
  unfold check
  split
  . next pattern hfilter =>
    rw [Option.filter_eq_some_iff] at hfilter
    simp only [reduceCtorEq, false_iff, not_and]
    intro hmatch
    simp [hmatch pattern hfilter.1] at hfilter
  . next hfilter =>
    rw [Except.ok.injEq, eq_comm]
    constructor
    . intro heq
      refine ⟨?_, heq⟩
      intro pattern hpattern
      simpa [hpattern] using hfilter
    . exact And.right

namespace Definition

variable [Engine] {rule : TextRule} {bounds : Bounds} {definition : Definition}
  {slot cleaned : Option Json}

theorem clean_string_eq_ok_iff :
    (string rule).clean slot = .ok cleaned ↔ ∃ text, Coercion.text slot = .ok text ∧
      (∀ pattern, rule.pattern = some pattern → pattern.isMatch text = true) ∧
        cleaned = if rule.omitEmpty && text = "" then none else some (.str text) := by
  simp only [clean, Except.bind_eq_ok_iff, TextRule.check_eq_ok_iff]

theorem clean_number_eq_ok_iff :
    (number bounds).clean slot = .ok cleaned ↔ ∃ n kept, Coercion.numeric slot = .ok (n, kept) ∧
      bounds.check n slot = .ok () ∧ cleaned = some kept := by
  simp only [clean, Except.bind_eq_ok_iff, Except.pure_eq_ok_iff, Prod.exists]
  constructor
  . rintro ⟨n, kept, hnumeric, _, hcheck, rfl⟩
    exact ⟨n, kept, hnumeric, hcheck, rfl⟩
  . rintro ⟨n, kept, hnumeric, hcheck, rfl⟩
    exact ⟨n, kept, hnumeric, (), hcheck, rfl⟩

theorem clean_integer_eq_ok_iff :
    (integer bounds).clean slot = .ok cleaned ↔ ∃ n kept source,
      Coercion.numeric slot = .ok (n, source) ∧ bounds.check n.roundHalfUp slot = .ok () ∧
        n.roundHalfUp.toJson? = some kept ∧ cleaned = some kept := by
  simp only [clean, Coercion.integer, Coercion.number, Except.bind_eq_ok_iff,
    Except.pure_eq_ok_iff, Except.map_eq_ok_iff, Coercion.emit_eq_ok_iff]
  constructor
  . rintro ⟨_, ⟨_, ⟨⟨n, source⟩, hnumeric, rfl⟩, rfl⟩, _, hcheck, kept, hkept, rfl⟩
    exact ⟨n, kept, source, hnumeric, hcheck, hkept, rfl⟩
  . rintro ⟨n, kept, source, hnumeric, hcheck, hkept, rfl⟩
    exact ⟨_, ⟨_, ⟨⟨n, source⟩, hnumeric, rfl⟩, rfl⟩, (), hcheck, kept, hkept, rfl⟩

theorem clean_boolean_eq_ok_iff :
    boolean.clean slot = .ok cleaned ↔
      ∃ b, Coercion.boolean slot = .ok b ∧ cleaned = some (.bool b) := by
  simp only [clean, Except.bind_eq_ok_iff, Except.pure_eq_ok_iff]
  constructor
  . rintro ⟨b, hboolean, rfl⟩
    exact ⟨b, hboolean, rfl⟩
  . rintro ⟨b, hboolean, rfl⟩
    exact ⟨b, hboolean, rfl⟩

theorem isScalar_of_clean_some {value : Json} (h : definition.clean (some value) = .ok cleaned) :
    value.isScalar = true := by
  cases definition with
  | string rule =>
    obtain ⟨text, htext, _⟩ := clean_string_eq_ok_iff.mp h
    exact Coercion.isScalar_of_text htext
  | number bounds =>
    obtain ⟨n, kept, hnumeric, _⟩ := clean_number_eq_ok_iff.mp h
    exact Coercion.isScalar_of_numeric hnumeric
  | integer bounds =>
    obtain ⟨n, kept, source, hnumeric, _⟩ := clean_integer_eq_ok_iff.mp h
    exact Coercion.isScalar_of_numeric hnumeric
  | boolean =>
    obtain ⟨b, hboolean, _⟩ := clean_boolean_eq_ok_iff.mp h
    exact Coercion.isScalar_of_boolean hboolean

theorem isScalar_of_clean_eq_some {value : Json} (h : definition.clean slot = .ok (some value)) :
    value.isScalar = true := by
  cases definition with
  | string rule =>
    obtain ⟨text, _, _, heq⟩ := clean_string_eq_ok_iff.mp h
    split at heq
    . simp at heq
    . rw [Option.some.injEq] at heq
      rw [heq]
      rfl
  | number bounds =>
    obtain ⟨n, kept, hnumeric, _, heq⟩ := clean_number_eq_ok_iff.mp h
    obtain ⟨number, rfl⟩ := Coercion.number_of_numeric hnumeric
    rw [Option.some.inj heq]
    rfl
  | integer bounds =>
    obtain ⟨n, kept, _, _, _, hkept, heq⟩ := clean_integer_eq_ok_iff.mp h
    obtain ⟨number, rfl⟩ := Coercion.number_of_toJson? hkept
    rw [Option.some.inj heq]
    rfl
  | boolean =>
    obtain ⟨b, _, heq⟩ := clean_boolean_eq_ok_iff.mp h
    rw [Option.some.inj heq]
    rfl

def Omits (definition : Definition) (slot : Option Json) : Prop :=
  ∃ rule, definition = .string rule ∧ rule.omitEmpty = true ∧
    (∀ pattern, rule.pattern = some pattern → pattern.isMatch "" = true) ∧
      (slot = none ∨ slot = some (.str ""))

theorem clean_eq_none_iff : definition.clean slot = .ok none ↔ definition.Omits slot := by
  cases definition with
  | string rule =>
    rw [clean_string_eq_ok_iff]
    constructor
    . rintro ⟨text, htext, hmatch, hnone⟩
      split at hnone
      . next h =>
        rw [Bool.and_eq_true, decide_eq_true_eq] at h
        obtain ⟨homit, rfl⟩ := h
        exact ⟨rule, rfl, homit, hmatch, Coercion.text_eq_empty_iff.mp htext⟩
      . simp at hnone
    . rintro ⟨_, heq, homit, hmatch, hslot⟩
      rw [string.injEq] at heq
      subst heq
      exact ⟨"", Coercion.text_eq_empty_iff.mpr hslot, hmatch, by simp [homit]⟩
  | number bounds => simp [clean_number_eq_ok_iff, Omits]
  | integer bounds => simp [clean_integer_eq_ok_iff, Omits]
  | boolean => simp [clean_boolean_eq_ok_iff, Omits]

theorem clean_workingValue (definition : Definition) (slot cleaned : Option Json) :
    definition.clean (slot.map Document.workingValue) = .ok cleaned ↔
      definition.clean slot = .ok cleaned := by
  cases slot with
  | none => rfl
  | some value =>
    cases value with
    | arr elements =>
      constructor
      . intro h
        exact absurd (isScalar_of_clean_some h) (by simp [Document.workingValue, Json.isScalar])
      . intro h
        exact absurd (isScalar_of_clean_some h) (by simp [Json.isScalar])
    | _ => rfl

end Definition

end Intake
