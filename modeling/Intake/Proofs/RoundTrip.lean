import Intake.Pattern.Engine
import Intake.Proofs.Layout
import Intake.Proofs.LongestNumeral
import Intake.Proofs.ShortestDigits
import Intake.Proofs.WholeNumbers

/-!
This module contains that the text of a finite number is read as this number. The text is a numeral
from its start to its end, and its value is the one of the shortest digits; so a number field makes
the same of a float and of the text that a string field makes of it.
-/

namespace Intake

open Intake.Numeral Intake.Utf8

namespace Numeral

variable {cs sign : List Char} {c : Char} {negative : Bool} {magnitude : Decimal}
  {numeral : Numeral}

theorem Denotes.longest (h : Denotes cs numeral) : Longest cs cs numeral where
  denotes := h
  starts := List.prefix_rfl
  longest := fun _ _ _ hle => hle.length_le

theorem isBlank_of_isDigit (h : c.isDigit = true) : isBlank c = false := by
  rw [← Bool.not_eq_true]
  intro hblank
  have hlt := toNat_lt_of_isDigit h
  unfold isBlank at hblank
  rw [Bool.or_eq_true, Bool.and_eq_true, decide_eq_true_eq, decide_eq_true_eq, decide_eq_true_eq]
    at hblank
  obtain hmem | ⟨hle, _⟩ := hblank
  . have hnone : ∀ b ∈ ['\t', '\n', '\x0b', '\x0c', '\r', ' ', '\u00a0', '\u1680', '\u2028',
        '\u2029', '\u202f', '\u205f', '\u3000', '\ufeff'], b.isDigit = false := by
      simp
    rw [hnone c hmem] at h
    contradiction
  . have hnat : '\u2000'.toNat ≤ c.toNat := hle
    have hvalue : '\u2000'.toNat = 8192 := rfl
    omega

theorem Denotes.dropWhile_isBlank (h : Denotes cs (.decimal negative magnitude)) :
    cs.dropWhile isBlank = cs := by
  cases h with
  | @decimal sign mantissa _ _ exponent _ _ isSign isMantissa isExponent =>
    have hhead : ∀ c ∈ (sign ++ (mantissa ++ exponent)).head?, isBlank c = false := by
      intro c hc
      cases isSign with
      | none =>
        obtain hdigit | rfl := isMantissa.head hc
        . exact isBlank_of_isDigit hdigit
        . decide
      | plus =>
        obtain rfl := Option.some.inj hc
        decide
      | minus =>
        obtain rfl := Option.some.inj hc
        decide
    generalize sign ++ (mantissa ++ exponent) = cs at hhead
    cases cs with
    | nil => rfl
    | cons c cs =>
      have hc := hhead c rfl
      rw [List.dropWhile_cons_of_neg (by rw [hc]; decide)]

theorem not_mem_of_isMantissa {mantissa whole fraction : List Char}
    (h : IsMantissa mantissa whole fraction) : 'e' ∉ mantissa := by
  intro hmem
  have hor := h.isDigit_or 'e' hmem
  revert hor
  decide

theorem IsSign.not_mem (h : IsSign sign negative) : 'e' ∉ sign := by
  cases h <;> decide

end Numeral

namespace Layout

variable {sign : List Char} {negative : Bool}

theorem exists_denotes_of_isMantissa {mantissa whole fraction : List Char} {d : Decimal}
    (hsign : IsSign sign negative) (hmantissa : IsMantissa mantissa whole fraction)
    (hvalue : (Decimal.ofParts whole fraction 0).value = d.value)
    (hpoint : ¬ (21 < d.point ∨ d.point ≤ -6)) :
    ∃ m, Denotes (sign ++ mantissa) (.decimal negative m) ∧ m.value = d.value ∧
      ('e' ∈ sign ++ mantissa ↔ 21 < d.point ∨ d.point ≤ -6) := by
  have hdenotes := Denotes.decimal hsign hmantissa .none
  rw [List.append_nil] at hdenotes
  refine ⟨_, hdenotes, hvalue, ?_⟩
  rw [List.mem_append, iff_false_right hpoint, not_or]
  exact ⟨hsign.not_mem, not_mem_of_isMantissa hmantissa⟩

theorem exists_denotes_ofDecimal (hsign : IsSign sign negative) (d : Decimal) :
    ∃ m, Denotes (sign ++ text.ofDecimal d) (.decimal negative m) ∧ m.value = d.value ∧
      ('e' ∈ sign ++ text.ofDecimal d ↔ 21 < d.point ∨ d.point ≤ -6) := by
  have hlength := List.length_pos_iff.mpr d.digitChars_ne_nil
  have hleast : text.leastPoint = -6 := rfl
  have hmost : text.mostPoint = 21 := rfl
  have hend : text.wholeEnd.toList = [] := rfl
  unfold ofDecimal
  dsimp only
  rw [hleast, hmost, hend, List.append_nil]
  split
  . next hbehind =>
    obtain ⟨whole, hmantissa, hvalue⟩ := exists_isMantissa_of_length_le hbehind.1
    exact exists_denotes_of_isMantissa hsign hmantissa hvalue (by omega)
  . split
    . next hbetween =>
      obtain ⟨hmantissa, hparts⟩ := isMantissa_of_point_pos hbetween.1 (by omega)
      exact exists_denotes_of_isMantissa hsign hmantissa (congrArg Decimal.value hparts) (by omega)
    . split
      . next hbefore =>
        obtain ⟨hmantissa, hparts⟩ := isMantissa_of_point_nonpos hbefore.2
        exact exists_denotes_of_isMantissa hsign hmantissa (congrArg Decimal.value hparts)
          (by omega)
      . next hfar =>
        obtain ⟨mantissa, whole, fraction, exponent, power, heq, hmantissa, hexponent, hparts⟩ :=
          scientific_eq d
        rw [heq]
        refine ⟨_, .decimal hsign hmantissa hexponent, congrArg Decimal.value hparts, ?_⟩
        have hpoint : 21 < d.point ∨ d.point ≤ -6 := by omega
        simp [hpoint]

end Layout

namespace Double

variable {x : Finite}

theorem exists_isSign (negative : Bool) (body : List Char) :
    ∃ sign, IsSign sign negative ∧ (if negative then '-' :: body else body) = sign ++ body := by
  cases negative with
  | false => exact ⟨[], .none, rfl⟩
  | true => exact ⟨['-'], .minus, rfl⟩

theorem toList_text (h : x.units ≠ 0) :
    ∃ sign, IsSign sign x.negative ∧
      (finite x).text.toList = sign ++ Layout.text.ofDecimal (x.shortest .up) := by
  rw [text, Layout.ofFinite, if_neg h, String.toList_ofList]
  exact exists_isSign x.negative _

theorem exists_denotes_text (h : x.units ≠ 0) :
    ∃ m, Denotes (finite x).text.toList (.decimal x.negative m) ∧
      m.value = (x.shortest .up).value ∧
        ('e' ∈ (finite x).text.toList ↔
          21 < (x.shortest .up).point ∨ (x.shortest .up).point ≤ -6) := by
  obtain ⟨sign, hsign, heq⟩ := toList_text h
  rw [heq]
  exact Layout.exists_denotes_ofDecimal hsign _

theorem text_of_units_eq_zero (h : x.units = 0) : (finite x).text = "0" := by
  rw [text, Layout.ofFinite, if_pos h]
  exact ite_self _

theorem ofText_text (x : Finite) :
    ofText (finite x).text = finite (if x.units = 0 then .zero false else x) := by
  split
  . next hzero =>
    rw [text_of_units_eq_zero hzero]
    decide +kernel
  . next hunits =>
    obtain ⟨m, hdenotes, hvalue, _⟩ := exists_denotes_text hunits
    have hlongest := hdenotes.longest
    rw [← hdenotes.dropWhile_isBlank] at hlongest
    rw [ofText_of_longest hlongest, Numeral.toDouble, ofDecimal_of_value_eq hvalue]
    exact x.readsBack_shortest .up

theorem leading_text (h : x.units ≠ 0) :
    ∃ m, leading (encode (finite x).text.toList) =
        .decimal (encode (finite x).text.toList).length ∧
      read? (finite x).text.toList = some (.decimal x.negative m) ∧
      m.value = (Nat.ofDigitChars 10 (x.shortest .up).digitChars 0 : ℚ) /
        10 ^ (x.shortest .up).digitChars.length * 10 ^ (x.shortest .up).point ∧
      ('e' ∈ (finite x).text.toList ↔
        21 < (x.shortest .up).point ∨ (x.shortest .up).point ≤ -6) := by
  obtain ⟨m, hdenotes, hvalue, hform⟩ := exists_denotes_text h
  refine ⟨m, ?_, read?_of_denotes hdenotes, ?_, hform⟩
  . rw [leading_of_longest hdenotes.longest, length_encode hdenotes.toNat_lt]
    rfl
  . rw [hvalue, Decimal.value_eq_point]

theorem toJson?_withoutZeroSign (x : Finite) :
    (finite (if x.units = 0 then .zero false else x)).toJson? =
      (finite x).toJson? := by
  split
  . next hzero =>
    have hint := Finite.toInt?_eq_some_iff.mpr (Finite.scaled_of_units_eq_zero hzero)
    rw [toJson?_of_toInt? hint (by decide) (by decide)]
    decide +kernel
  . rfl

end Double

namespace Definition

section

variable [Engine] {x : Finite}

theorem clean_string_float (x : Finite) :
    (string {}).clean (some (.num (.float x))) = .ok (some (.str (Double.finite x).text)) := rfl

theorem clean_number_float {kept : Json} (h : (Double.finite x).toJson? = some kept) :
    (number {}).clean (some (.num (.float x))) = .ok (some kept) := by
  refine clean_number_eq_ok_iff.mpr ⟨.finite x, kept, ?_, check_empty _ _, rfl⟩
  rw [Coercion.numeric, (Coercion.emit_eq_ok_iff _ _ _).mpr h]
  rfl

theorem clean_number_str {text : String} {kept : Json} (h : Double.ofText text = .finite x)
    (hjson : (Double.finite x).toJson? = some kept) :
    (number {}).clean (some (.str text)) = .ok (some kept) := by
  refine clean_number_eq_ok_iff.mpr ⟨.finite x, kept, ?_, check_empty _ _, rfl⟩
  rw [Coercion.numeric, h, (Coercion.emit_eq_ok_iff _ _ _).mpr hjson]
  rfl

theorem text_round_trip (x : Finite) :
    (x.units ≠ 0 → x.IsShortest (x.shortest .up) ∧ ∃ m,
      leading (encode (Double.finite x).text.toList) =
        .decimal (encode (Double.finite x).text.toList).length ∧
      read? (Double.finite x).text.toList = some (.decimal x.negative m) ∧
      m.value = (Nat.ofDigitChars 10 (x.shortest .up).digitChars 0 : ℚ) /
        10 ^ (x.shortest .up).digitChars.length * 10 ^ (x.shortest .up).point ∧
      ('e' ∈ (Double.finite x).text.toList ↔
        21 < (x.shortest .up).point ∨ (x.shortest .up).point ≤ -6)) ∧
    Double.ofText (Double.finite x).text = .finite (if x.units = 0 then .zero false else x) ∧
    ∃ kept,
      (string {}).clean (some (.num (.float x))) = .ok (some (.str (Double.finite x).text)) ∧
      (number {}).clean (some (.str (Double.finite x).text)) = .ok (some kept) ∧
      (number {}).clean (some (.num (.float x))) = .ok (some kept) := by
  obtain ⟨kept, hjson, _⟩ := x.exists_toJson?
  have htext := Double.ofText_text x
  have hjson' := (Double.toJson?_withoutZeroSign x).trans hjson
  refine ⟨?_, htext, .num kept, clean_string_float x,
    clean_number_str htext hjson', clean_number_float hjson⟩
  intro hunits
  exact ⟨Finite.isShortest_shortest .up hunits, Double.leading_text hunits⟩

end

theorem text_round_trip_least :
    ∃ x : Finite, x.units = 1 ∧ (Double.finite x).text = "5e-324" ∧
      Double.ofText "5e-324" = .finite x ∧
      ∃ m, read? "5e-324".toList = some (.decimal false m) ∧
        m.value = 5 / 10 * 10 ^ (-323 : Int) := by
  let x : Finite := ⟨false, 1, ⟨1, 0, by decide, rfl⟩, by decide +kernel⟩
  have htext : (Double.finite x).text = "5e-324" := by decide +kernel
  have hdigits : (x.shortest .up).digitChars = ['5'] := by decide +kernel
  have hpoint : (x.shortest .up).point = -323 := by decide +kernel
  obtain ⟨hnumeral, hread, _⟩ := text_round_trip x
  obtain ⟨_, m, _, hread?, hvalue, _⟩ := hnumeral (by decide)
  rw [htext] at hread hread?
  rw [hdigits, hpoint] at hvalue
  refine ⟨x, rfl, htext, hread, m, hread?, ?_⟩
  rw [hvalue]
  simp [Nat.ofDigitChars]

end Definition

end Intake
