import Intake.Pattern.Engine
import Intake.Proofs.IntegerText
import Intake.Proofs.Leftovers
import Intake.Proofs.Place
import Intake.Rejection.Report

/-!
This module contains how many lines a report has. Every line feed that is not between two lines of
the report comes from a text of the document, since nothing else that a report is made of has any:
messages without a pattern, places and the short forms of all values but texts.
-/

namespace Intake

def lineFeeds (text : String) : Nat :=
  text.toList.count '\n'

variable {c : Char}

theorem lineFeeds_append (text text' : String) :
    lineFeeds (text ++ text') = lineFeeds text + lineFeeds text' := by
  unfold lineFeeds
  rw [String.toList_append, List.count_append]

theorem lineFeeds_eq_zero_iff (text : String) : lineFeeds text = 0 ↔ '\n' ∉ text.toList :=
  List.count_eq_zero

theorem lineFeeds_intercalate (separator : String) (texts : List String) :
    lineFeeds (separator.intercalate texts) =
      (texts.map lineFeeds).sum + (texts.length - 1) * lineFeeds separator := by
  induction texts with
  | nil => simp [lineFeeds]
  | cons first rest ih =>
    cases rest with
    | nil => simp
    | cons second rest =>
      rw [String.intercalate_cons_cons, lineFeeds_append, lineFeeds_append, ih]
      simp only [List.map_cons, List.sum_cons, List.length_cons, Nat.add_sub_cancel, Nat.succ_mul]
      omega

/-! Numbers are written without line feeds. -/

namespace Layout

variable {layout : Layout}

theorem notMem_of_allDigits {cs : List Char} (h : Numeral.AllDigits cs)
    (hdigit : c.isDigit = false) : c ∉ cs := by
  intro hmem
  rw [h c hmem] at hdigit
  contradiction

theorem notMem_scientific {digits : List Char} (power : Int) (hdigits : c ∉ digits)
    (hpower : c ∉ Nat.toDigits 10 power.natAbs) (hmark : c ∉ ['.', 'e', '+', '-']) :
    c ∉ scientific digits power := by
  have htake : c ∉ digits.take 1 := fun hmem => hdigits (List.mem_of_mem_take hmem)
  have hdrop : c ∉ digits.tail := fun hmem => hdigits (List.mem_of_mem_tail hmem)
  simp only [List.mem_cons, List.not_mem_nil, or_false, not_or] at hmark
  unfold scientific
  dsimp only
  split <;> split <;> simp [htake, hdrop, hpower, hmark]

theorem notMem_ofDecimal (d : Decimal) (hdigit : c.isDigit = false)
    (hmark : c ∉ ['.', 'e', '+', '-']) (hend : c ∉ layout.wholeEnd.toList) :
    c ∉ layout.ofDecimal d := by
  have hdigits : c ∉ d.digitChars := notMem_of_allDigits d.allDigits_digitChars hdigit
  have hzeros : ∀ n, c ∉ List.replicate n '0' :=
    fun n => notMem_of_allDigits (Numeral.allDigits_zeros n) hdigit
  have htake : ∀ n, c ∉ d.digitChars.take n := fun _ hmem => hdigits (List.mem_of_mem_take hmem)
  have hdrop : ∀ n, c ∉ d.digitChars.drop n := fun _ hmem => hdigits (List.mem_of_mem_drop hmem)
  have hpoint : c ≠ '.' := fun heq => hmark (heq ▸ List.mem_cons_self)
  have hzero : c ≠ '0' := by
    rintro rfl
    simp at hdigit
  unfold ofDecimal
  dsimp only
  split
  . simp only [List.mem_append, not_or]
    exact ⟨⟨hdigits, hzeros _⟩, hend⟩
  . split
    . simp only [List.mem_append, List.mem_cons, not_or]
      exact ⟨htake _, hpoint, hdrop _⟩
    . split
      . simp only [List.mem_append, List.mem_cons, not_or]
        exact ⟨hzero, hpoint, hzeros _, hdigits⟩
      . exact notMem_scientific _ hdigits
          (notMem_of_allDigits (Decimal.allDigits_toDigits _) hdigit) hmark

theorem lineFeeds_ofFinite (x : Finite) (hend : '\n' ∉ layout.wholeEnd.toList)
    (hzero : lineFeeds layout.zero = 0) (hnegative : lineFeeds layout.negativeZero = 0) :
    lineFeeds (layout.ofFinite x) = 0 := by
  have hbody := notMem_ofDecimal (x.shortest layout.tie) (by decide) (by decide) hend
  unfold ofFinite
  split
  . split
    . exact hnegative
    . exact hzero
  . dsimp only
    rw [lineFeeds_eq_zero_iff, String.toList_ofList]
    split
    . simpa using hbody
    . exact hbody

end Layout

theorem lineFeeds_intText (i : Int) : lineFeeds (toString i) = 0 := by
  have hdigits : '\n' ∉ Nat.toDigits 10 i.natAbs :=
    Layout.notMem_of_allDigits (Decimal.allDigits_toDigits _) (by decide)
  rw [lineFeeds_eq_zero_iff, Numeral.toList_toString]
  split
  . simpa using hdigits
  . exact hdigits

theorem lineFeeds_natText (n : Nat) : lineFeeds (toString n) = 0 := lineFeeds_intText n

theorem Double.lineFeeds_text (n : Double) : lineFeeds n.text = 0 := by
  cases n with
  | finite x => exact Layout.lineFeeds_ofFinite x (by decide) (by decide) (by decide)
  | infinite negative => cases negative <;> decide
  | nan => decide

theorem Number.lineFeeds_text (n : Number) : lineFeeds n.text = 0 := by
  cases n with
  | int value => exact lineFeeds_intText value
  | float value => exact Layout.lineFeeds_ofFinite value (by decide) (by decide) (by decide)

theorem Json.lineFeeds_typeName (value : Json) : lineFeeds value.typeName = 0 := by
  unfold typeName
  split <;> decide

theorem Json.lineFeeds_short (value : Json) :
    lineFeeds value.short =
      match value with
      | .str text => lineFeeds (ellipsis 50 47 text)
      | _ => 0 := by
  cases value with
  | null => decide
  | bool value => cases value <;> decide
  | num value => exact value.lineFeeds_text
  | str text =>
    have hquote : lineFeeds "\"" = 0 := by decide
    dsimp only [short]
    rw [lineFeeds_append, lineFeeds_append, hquote, Nat.zero_add, Nat.add_zero]
  | arr elements =>
    dsimp only [short]
    rw [lineFeeds_append, lineFeeds_append, lineFeeds_natText]
    decide
  | obj members =>
    dsimp only [short]
    rw [lineFeeds_append, lineFeeds_append, lineFeeds_natText]
    decide

theorem Limit.lineFeeds_phrase (limit : Limit) : lineFeeds limit.phrase = 0 := by
  cases limit <;> decide

/-! Messages have no line feeds but those of patterns and unexpected keys. -/

def Definition.InLine [Engine] (definition : Definition) : Prop :=
  ∀ rule pattern, definition = .string rule → rule.pattern = some pattern →
    lineFeeds pattern.source = 0

theorem Definition.MayCause.lineFeeds_message [Engine] {definition : Definition} {cause : Cause}
    (h : definition.MayCause cause) (inLine : definition.InLine) : lineFeeds cause.message = 0 := by
  cases h with
  | notConvertible value =>
    dsimp only [Cause.message]
    rw [lineFeeds_append, value.lineFeeds_typeName]
    decide
  | notFinite | notBooleanText | notBooleanNumber => decide
  | noMatch hrule hpattern =>
    dsimp only [Cause.message]
    rw [lineFeeds_append, lineFeeds_append, inLine _ _ hrule hpattern]
    decide
  | outOfBounds limit bound =>
    dsimp only [Cause.message]
    rw [lineFeeds_append, lineFeeds_append, lineFeeds_append, limit.lineFeeds_phrase,
      bound.lineFeeds_text]
    decide

theorem Cause.lineFeeds_message_unexpected (keys : List String) :
    lineFeeds (unexpected keys).message = (keys.map lineFeeds).sum := by
  have hseparator : lineFeeds ", " = 0 := by decide
  have hprefix : lineFeeds (if keys.length ≤ 1 then "unexpected property: "
      else "unexpected properties: ") = 0 := by
    split <;> decide
  rw [message_unexpected, lineFeeds_append, lineFeeds_intercalate, hprefix, hseparator,
    Nat.mul_zero, Nat.add_zero, Nat.zero_add]

namespace Rejection

variable {rejection : Rejection}

theorem lineFeeds_report (rejection : Rejection) :
    lineFeeds rejection.report =
      lineFeeds rejection.message + (rejection.detailLines.map lineFeeds).sum +
        rejection.detailLines.length := by
  have hfeed : lineFeeds "\n" = 1 := by decide
  have hmark : lineFeeds "✖ " = 0 := by decide
  unfold report
  rw [lineFeeds_intercalate, List.map_cons, List.sum_cons, lineFeeds_append, hmark, hfeed,
    List.length_cons, Nat.add_sub_cancel, Nat.mul_one, Nat.zero_add]

theorem lineFeeds_report_unexpected (keys : List String) :
    lineFeeds (Rejection.of (.unexpected keys) none).report =
      keys.length + 2 * (keys.map lineFeeds).sum := by
  have hmark : lineFeeds "  → " = 0 := by decide
  have hlines : (Rejection.of (.unexpected keys) none).detailLines =
      keys.map ("  → " ++ ·) := rfl
  have hcounts : (keys.map ("  → " ++ ·)).map lineFeeds = keys.map lineFeeds := by
    rw [List.map_map]
    apply List.map_congr_left
    intro key _
    rw [Function.comp, lineFeeds_append, hmark, Nat.zero_add]
  rw [lineFeeds_report, hlines, hcounts, List.length_map, message, of,
    Cause.lineFeeds_message_unexpected]
  omega

theorem sum_lineFeeds_circumstances (hplace : lineFeeds rejection.pathText = 0) :
    (rejection.circumstances.map lineFeeds).sum =
      rejection.received.elim 0 (lineFeeds ·.short) := by
  have hat : lineFeeds "at " = 0 := by decide
  have hreceived : lineFeeds "received " = 0 := by decide
  unfold circumstances
  cases rejection.received <;> split <;>
    simp [lineFeeds_append, hat, hreceived, hplace]

theorem lineFeeds_report_of_circumstances (hkind : ∀ keys, rejection.kind ≠ .unexpected keys)
    (hmessage : lineFeeds rejection.message = 0) (hplace : lineFeeds rejection.pathText = 0)
    (hcircumstances : rejection.circumstances ≠ []) :
    lineFeeds rejection.report = 1 + rejection.received.elim 0 (lineFeeds ·.short) := by
  have hmark : lineFeeds "  → " = 0 := by decide
  have hseparator : lineFeeds ", " = 0 := by decide
  have hlines : rejection.detailLines =
      ["  → " ++ ", ".intercalate rejection.circumstances] := by
    unfold detailLines
    split
    . next keys heq => exact absurd heq (hkind keys)
    . rw [if_neg (by simpa using hcircumstances)]
  rw [lineFeeds_report, hmessage, hlines, List.map_singleton, List.sum_singleton,
    List.length_singleton, lineFeeds_append, hmark, lineFeeds_intercalate, hseparator,
    sum_lineFeeds_circumstances hplace]
  omega

end Rejection

theorem Segment.IsPlace.lineFeeds_pathText {place : List Segment} (h : IsPlace place) :
    lineFeeds (pathText place) = 0 := by
  rw [lineFeeds_eq_zero_iff]
  exact h.notMem (by decide) (by decide)

namespace Field

variable [Engine] {field : Field} {rejection : Rejection}

theorem Rejects.lineFeeds_message (h : field.Rejects rejection)
    (inLine : field.definition.InLine) : lineFeeds rejection.message = 0 := by
  cases h with
  | member _ hcause | element _ _ hcause => exact hcause.lineFeeds_message inLine
  | notArray =>
    have hnotArray : lineFeeds Cause.notArray.message = 0 := by decide
    exact hnotArray
  | notObject =>
    have hnotObject : lineFeeds Cause.notObject.message = 0 := by decide
    exact hnotObject

theorem Rejects.lineFeeds_report (h : field.Rejects rejection)
    (inLine : field.definition.InLine) :
    lineFeeds rejection.report = 1 + rejection.received.elim 0 (lineFeeds ·.short) := by
  apply Rejection.lineFeeds_report_of_circumstances
  . intro keys hkind
    obtain hother | hother | hother := h.kind <;> simp [hkind] at hother
  . exact h.lineFeeds_message inLine
  . exact h.isPlace.lineFeeds_pathText
  . simp [Rejection.circumstances, h.isPlace.ne_nil]

end Field

namespace Validator

theorem lineFeeds_report_notDocument (value : Json) :
    lineFeeds (Rejection.of (.notDocument value.typeName) (some value)).report =
      1 + (some value.truncated).elim 0 (lineFeeds ·.short) := by
  apply Rejection.lineFeeds_report_of_circumstances
  . simp [Cause.kind]
  . dsimp only [Rejection.message, Rejection.of, Cause.message]
    rw [lineFeeds_append, value.lineFeeds_typeName]
    decide
  . have hnowhere : lineFeeds (Segment.pathText []) = 0 := by decide
    exact hnowhere
  . simp [Rejection.circumstances, Rejection.of]

section

variable [Engine] {validator : Validator} {value : Json} {rejection : Rejection}

theorem lineFeeds_report_of_rejects (inLine : ∀ field ∈ validator.fields, field.definition.InLine)
    (h : validator.Rejects value rejection) (hkind : ∀ keys, rejection.kind ≠ .unexpected keys) :
    lineFeeds rejection.report = 1 + rejection.received.elim 0 (lineFeeds ·.short) := by
  cases h with
  | notDocument _ => exact lineFeeds_report_notDocument value
  | field hfield h => exact h.lineFeeds_report (inLine _ hfield)
  | unexpected doc => exact absurd rfl (hkind (validator.leftovers doc))

theorem eq_unexpected_of_kind {keys : List String} (h : validator.Rejects value rejection)
    (hkind : rejection.kind = .unexpected keys) : rejection = .of (.unexpected keys) none := by
  cases h with
  | notDocument => simp [Cause.kind] at hkind
  | field _ h => obtain hother | hother | hother := h.kind <;> simp [hkind] at hother
  | unexpected doc =>
    obtain ⟨rfl⟩ := hkind
    rfl

/--
A report has as many lines as it should, one for the message and one for the circumstances or for
each unexpected key, if and only if the keys, or the part of the text that is shown, have no line
feeds. Otherwise each line feed in a key counts twice and each one in the text once.
-/
theorem report_lines_iff (inLine : ∀ field ∈ validator.fields, field.definition.InLine)
    (h : validator.validate value = .error rejection) :
    (∀ keys, rejection.kind = .unexpected keys →
      lineFeeds rejection.report = keys.length + 2 * (keys.map lineFeeds).sum ∧
        (lineFeeds rejection.report = keys.length ↔ ∀ key ∈ keys, '\n' ∉ key.toList)) ∧
    ((∀ keys, rejection.kind ≠ .unexpected keys) →
      lineFeeds rejection.report = 1 + rejection.received.elim 0 (lineFeeds ·.short) ∧
        (lineFeeds rejection.report = 1 ↔ ∀ text, rejection.received = some (.str text) →
          '\n' ∉ (ellipsis 50 47 text).toList)) := by
  have hrejects := rejects_of_validate h
  constructor
  . intro keys hkind
    obtain rfl := eq_unexpected_of_kind hrejects hkind
    have hcount := Rejection.lineFeeds_report_unexpected keys
    refine ⟨hcount, ?_⟩
    rw [hcount, Nat.add_eq_left, Nat.mul_eq_zero, List.sum_eq_zero_iff_forall_eq_nat]
    simp [lineFeeds_eq_zero_iff]
  . intro hkind
    have hcount := lineFeeds_report_of_rejects inLine hrejects hkind
    refine ⟨hcount, ?_⟩
    rw [hcount, Nat.add_eq_left]
    cases rejection.received with
    | none => simp
    | some shown =>
      rw [Option.elim_some, Json.lineFeeds_short]
      cases shown <;> simp [lineFeeds_eq_zero_iff]

end

theorem report_lines_cut :
    ∃ validator rejection, ofSchema (.ofList [("s", .boolean)]) = .ok validator ∧
      (∀ field ∈ validator.fields, field.definition.InLine) ∧
      validator.validate (.obj [("s", .str (String.ofList (List.replicate 60 'x') ++ "\n"))]) =
        .error rejection ∧
      lineFeeds rejection.report = 1 := by
  have hvalidator : ∀ field ∈ [(⟨⟨⟨"s", by decide⟩, none⟩, .boolean⟩ : Field)],
      field.definition.InLine := by
    simp [Definition.InLine]
  have hrejected : validate ⟨[⟨⟨⟨"s", by decide⟩, none⟩, .boolean⟩]⟩
      (.obj [("s", .str (String.ofList (List.replicate 60 'x') ++ "\n"))]) =
      .error ((Rejection.of .notBooleanText
        (some (.str (String.ofList (List.replicate 60 'x') ++ "\n")))).locate [.field "s"]) := by
    decide +kernel
  obtain ⟨_, hlines⟩ := report_lines_iff hvalidator hrejected
  obtain ⟨_, hiff⟩ := hlines (by simp [Cause.kind])
  refine ⟨_, _, by decide, hvalidator, hrejected, hiff.mpr ?_⟩
  intro text htext
  obtain ⟨rfl⟩ := htext
  decide +kernel

theorem forged_line_reported :
    ∃ validator rejection, ofSchema (.ofList [("n", .number {})]) = .ok validator ∧
      (∀ field ∈ validator.fields, field.definition.InLine) ∧
      validator.validate (.obj [("n", .str "a\nb")]) = .error rejection ∧
      (∀ keys, rejection.kind ≠ .unexpected keys) ∧ lineFeeds rejection.report ≠ 1 := by
  refine ⟨⟨[⟨⟨⟨"n", by decide⟩, none⟩, .number {}⟩]⟩,
    (Rejection.of .notFinite (some (.str "a\nb"))).locate [.field "n"], by decide,
    by simp [Definition.InLine], by decide +kernel, ?_, by decide +kernel⟩
  simp [Cause.kind]

end Validator

end Intake
