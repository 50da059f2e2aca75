import Mathlib.Data.List.TakeWhile
import Intake.Proofs.Nearest
import Intake.Proofs.Numeral
import Intake.Proofs.Utf8

/-!
This module contains that the scan over the bytes of a text ends behind the longest numeral that the
text starts with. Each part of the scan splits the characters from its position on into what it
passes over and a rest, and nothing that is longer could have been passed over.
-/

namespace Intake

open Intake.Utf8

namespace Numeral

variable {bytes : List UInt8} {i : Nat} {c : Char}
  {cs rest sign sign' digits digits' : List Char}
  {mantissa mantissa' whole whole' fraction fraction' exponent exponent' : List Char}
  {negative negative' : Bool} {power power' : Int}

theorem toNat_lt_of_isDigit (h : c.isDigit = true) : c.toNat < 128 := by
  rw [Char.isDigit_iff_toNat] at h
  exact Nat.lt_of_le_of_lt h.2 (by decide)

theorem isDigitByte_toUInt8 (h : c.toNat < 128) : isDigitByte c.toUInt8 = c.isDigit := by
  rw [Bool.eq_iff_iff, Char.isDigit_iff_toNat, isDigitByte, Bool.and_eq_true, decide_eq_true_eq,
    decide_eq_true_eq, UInt8.le_iff_toNat_le, UInt8.le_iff_toNat_le, toNat_toUInt8 h]
  rfl

theorem takeWhile_encode (cs : List Char) :
    (encode cs).takeWhile isDigitByte = encode (cs.takeWhile Char.isDigit) := by
  induction cs with
  | nil => rfl
  | cons c cs ih =>
    by_cases hascii : c.toNat < 128
    . rw [encode_cons_of_ascii hascii, List.takeWhile_cons, List.takeWhile_cons, ih,
        isDigitByte_toUInt8 hascii]
      split
      . rw [encode_cons_of_ascii hascii]
      . rfl
    . have hdigit : c.isDigit = false := by
        rw [← Bool.not_eq_true]
        exact fun h => hascii (toNat_lt_of_isDigit h)
      obtain ⟨b, rest, hbytes, hb⟩ := exists_utf8EncodeChar hascii
      have hbyte : isDigitByte b = false := by
        rw [isDigitByte, Bool.and_eq_false_iff, decide_eq_false_iff_not, decide_eq_false_iff_not,
          UInt8.le_iff_toNat_le, UInt8.le_iff_toNat_le]
        right
        have hnine : '9'.toUInt8.toNat = 57 := rfl
        omega
      rw [encode_cons, hbytes, List.cons_append, List.takeWhile_cons, List.takeWhile_cons, hbyte,
        hdigit]
      rfl

theorem AllDigits.toNat_lt (h : AllDigits digits) : ∀ c ∈ digits, c.toNat < 128 :=
  fun c hc => toNat_lt_of_isDigit (h c hc)

theorem IsSign.toNat_lt (h : IsSign sign negative) : ∀ c ∈ sign, c.toNat < 128 := by
  cases h <;> simp

theorem exists_digitsEnd (h : bytes.drop i = encode cs) :
    ∃ digits rest, cs = digits ++ rest ∧ AllDigits digits ∧
      (∀ c ∈ rest.head?, c.isDigit = false) ∧ digitsEnd bytes i = i + digits.length ∧
        bytes.drop (i + digits.length) = encode rest := by
  have hdigits : AllDigits (cs.takeWhile Char.isDigit) := by
    intro c hc
    exact List.mem_takeWhile_imp hc
  have hsplit := List.takeWhile_append_dropWhile (p := Char.isDigit) (l := cs)
  refine ⟨_, _, hsplit.symm, hdigits, ?_, ?_, ?_⟩
  . intro c hc
    have hhead := List.head?_dropWhile_not Char.isDigit cs
    rw [Option.mem_def] at hc
    simpa [hc] using hhead
  . unfold digitsEnd
    rw [h, takeWhile_encode, length_encode hdigits.toNat_lt]
  . rw [← hsplit] at h
    exact drop_of_append h hdigits.toNat_lt

theorem exists_signEnd (h : bytes.drop i = encode cs) :
    ∃ sign negative rest, cs = sign ++ rest ∧ IsSign sign negative ∧
      (sign = [] → ∀ c ∈ rest.head?, c ≠ '+' ∧ c ≠ '-') ∧ signEnd bytes i = i + sign.length ∧
        bytes.drop (i + sign.length) = encode rest := by
  have hplus := getElem?_iff h (a := '+') (by decide)
  have hminus := getElem?_iff h (a := '-') (by decide)
  unfold signEnd
  split
  . next hsign =>
    obtain hbyte | hbyte := hsign
    . obtain ⟨rest, rfl⟩ := hplus.mp hbyte
      refine ⟨['+'], false, rest, rfl, .plus, by simp, rfl, ?_⟩
      exact drop_of_append (p := ['+']) h (IsSign.plus.toNat_lt)
    . obtain ⟨rest, rfl⟩ := hminus.mp hbyte
      refine ⟨['-'], true, rest, rfl, .minus, by simp, rfl, ?_⟩
      exact drop_of_append (p := ['-']) h (IsSign.minus.toNat_lt)
  . next hsign =>
    rw [not_or, hplus, hminus, not_exists, not_exists] at hsign
    refine ⟨[], false, cs, rfl, .none, ?_, rfl, h⟩
    rintro - c hc
    cases cs with
    | nil => simp at hc
    | cons d cs =>
      rw [List.head?_cons, Option.mem_some_iff] at hc
      subst hc
      refine ⟨?_, ?_⟩
      . rintro rfl
        exact hsign.1 cs rfl
      . rintro rfl
        exact hsign.2 cs rfl

theorem AllDigits.isPrefix (h : AllDigits digits') (hrest : ∀ c ∈ rest.head?, c.isDigit = false)
    (hle : digits' <+: digits ++ rest) : digits' <+: digits := by
  obtain hinit | ⟨more, rfl⟩ :=
    List.prefix_or_prefix_of_prefix hle (List.prefix_append digits rest)
  . exact hinit
  . rw [List.prefix_append_right_inj] at hle
    cases more with
    | nil =>
      simp
    | cons c more =>
      obtain ⟨tail, rfl⟩ := hle
      have hdigit := h c (by simp)
      rw [hrest c rfl] at hdigit
      contradiction

theorem AllDigits.eq_of_point (h : AllDigits digits') (hdigits : AllDigits digits)
    (hrest : ∀ c ∈ rest.head?, c.isDigit = false) {fraction : List Char}
    (hle : digits' ++ '.' :: fraction <+: digits ++ rest) :
    digits' = digits ∧ '.' :: fraction <+: rest := by
  obtain ⟨more, rfl⟩ := h.isPrefix hrest ((List.prefix_append _ _).trans hle)
  rw [List.append_assoc, List.prefix_append_right_inj] at hle
  cases more with
  | nil => exact ⟨(List.append_nil _).symm, hle⟩
  | cons c more =>
    rw [List.cons_append, List.cons_prefix_cons] at hle
    have hdigit := hdigits c (by simp)
    rw [← hle.1] at hdigit
    contradiction

theorem IsSign.eq_of_prefix (h : IsSign sign negative) (h' : IsSign sign' negative')
    (hrest : sign = [] → ∀ c ∈ rest.head?, c ≠ '+' ∧ c ≠ '-') {cs' : List Char} (hne : cs' ≠ [])
    (hcs' : ∀ c ∈ cs'.head?, c ≠ '+' ∧ c ≠ '-') (hle : sign' ++ cs' <+: sign ++ rest) :
    sign' = sign ∧ cs' <+: rest := by
  cases cs' with
  | nil => exact absurd rfl hne
  | cons d cs' =>
    have hd := hcs' d rfl
    cases h with
    | none =>
      cases h' with
      | none => exact ⟨rfl, hle⟩
      | plus =>
        obtain ⟨tail, rfl⟩ := hle
        exact absurd rfl (hrest rfl '+' rfl).1
      | minus =>
        obtain ⟨tail, rfl⟩ := hle
        exact absurd rfl (hrest rfl '-' rfl).2
    | plus =>
      cases h' with
      | none => exact absurd (List.cons_prefix_cons.mp hle).1 hd.1
      | plus => exact ⟨rfl, (List.cons_prefix_cons.mp hle).2⟩
      | minus => simp at hle
    | minus =>
      cases h' with
      | none => exact absurd (List.cons_prefix_cons.mp hle).1 hd.2
      | plus => simp at hle
      | minus => exact ⟨rfl, (List.cons_prefix_cons.mp hle).2⟩

theorem IsMantissa.isDigit_or (h : IsMantissa mantissa whole fraction) :
    ∀ c ∈ mantissa, c.isDigit = true ∨ c = '.' := by
  cases h with
  | whole digits nonempty => exact fun c hc => Or.inl (digits c hc)
  | point digits nonempty digits' =>
    intro c hc
    rw [List.mem_append, List.mem_cons] at hc
    obtain hc | rfl | hc := hc
    . exact Or.inl (digits c hc)
    . exact Or.inr rfl
    . exact Or.inl (digits' c hc)
  | fraction digits nonempty =>
    intro c hc
    rw [List.mem_cons] at hc
    obtain rfl | hc := hc
    . exact Or.inr rfl
    . exact Or.inl (digits c hc)

theorem ne_nil_of_isPrefix {p : List Char} (h : p <+: cs) (hne : p ≠ []) : cs ≠ [] := by
  rintro rfl
  exact hne (List.prefix_nil.mp h)

theorem IsMantissa.length_le_of_point (h : IsMantissa mantissa' whole' fraction')
    (hwhole : AllDigits whole) (hrest : ∀ c ∈ rest.head?, c.isDigit = false)
    (hle : mantissa' <+: whole ++ '.' :: (fraction ++ rest)) :
    mantissa'.length ≤ (whole ++ '.' :: fraction).length ∧ (whole ≠ [] ∨ fraction ≠ []) := by
  have hpoint : ∀ c ∈ ('.' :: (fraction ++ rest)).head?, c.isDigit = false := by simp
  rw [List.length_append, List.length_cons]
  cases h with
  | whole digits nonempty =>
    have hinit := digits.isPrefix hpoint hle
    have hlength := hinit.length_le
    exact ⟨by omega, Or.inl (ne_nil_of_isPrefix hinit nonempty)⟩
  | point digits nonempty digits' =>
    obtain ⟨rfl, hle'⟩ := digits.eq_of_point hwhole hpoint hle
    have hinit := digits'.isPrefix hrest (List.cons_prefix_cons.mp hle').2
    have hlength := hinit.length_le
    rw [List.length_append, List.length_cons]
    exact ⟨by omega, Or.inl nonempty⟩
  | fraction digits nonempty =>
    obtain ⟨rfl, hle'⟩ := AllDigits.nil.eq_of_point hwhole hpoint hle
    have hinit := digits.isPrefix hrest (List.cons_prefix_cons.mp hle').2
    have hlength := hinit.length_le
    rw [List.length_cons]
    exact ⟨by omega, Or.inr (ne_nil_of_isPrefix hinit nonempty)⟩

theorem IsMantissa.length_le_of_whole (h : IsMantissa mantissa' whole' fraction')
    (hwhole : AllDigits whole) (hrest : ∀ c ∈ rest.head?, c.isDigit = false)
    (hpoint : ∀ tail, rest ≠ '.' :: tail) (hle : mantissa' <+: whole ++ rest) :
    mantissa'.length ≤ whole.length ∧ whole ≠ [] := by
  cases h with
  | whole digits nonempty =>
    have hinit := digits.isPrefix hrest hle
    exact ⟨hinit.length_le, ne_nil_of_isPrefix hinit nonempty⟩
  | point digits nonempty digits' =>
    obtain ⟨_, tail, rfl⟩ := digits.eq_of_point hwhole hrest hle
    exact absurd rfl (hpoint _)
  | fraction digits nonempty =>
    obtain ⟨_, tail, rfl⟩ := AllDigits.nil.eq_of_point hwhole hrest hle
    exact absurd rfl (hpoint _)

theorem mantissaEnd?_cases (h : bytes.drop i = encode cs) :
    (mantissaEnd? bytes i = none ∧
      ∀ mantissa' whole' fraction', IsMantissa mantissa' whole' fraction' → ¬ mantissa' <+: cs) ∨
    ∃ mantissa whole fraction rest, cs = mantissa ++ rest ∧ IsMantissa mantissa whole fraction ∧
      mantissaEnd? bytes i = some (i + mantissa.length) ∧
        bytes.drop (i + mantissa.length) = encode rest ∧
          ∀ mantissa' whole' fraction', IsMantissa mantissa' whole' fraction' →
            mantissa' <+: cs → mantissa'.length ≤ mantissa.length := by
  obtain ⟨whole, rest, rfl, hwhole, hrest, hstop, hdrop⟩ := exists_digitsEnd h
  have hpoint := getElem?_iff hdrop (a := '.') (by decide)
  unfold mantissaEnd?
  rw [hstop]
  dsimp only
  split
  . next hbyte =>
    obtain ⟨tail, rfl⟩ := hpoint.mp hbyte
    have hdrop' := drop_of_append (p := ['.']) hdrop (by simp)
    obtain ⟨fraction, rest, rfl, hfraction, hrest', hstop', hdrop''⟩ := exists_digitsEnd hdrop'
    rw [List.length_singleton] at hstop' hdrop''
    rw [hstop']
    split
    . next hnone =>
      -- A point without digits on either side is no mantissa, and neither is anything before it.
      refine Or.inl ⟨rfl, ?_⟩
      intro mantissa' whole' fraction' hmantissa hle
      have hne := (hmantissa.length_le_of_point hwhole hrest' hle).2
      rw [← List.length_pos_iff, ← List.length_pos_iff] at hne
      omega
    . next hsome =>
      refine Or.inr ⟨whole ++ '.' :: fraction, whole, fraction, rest, by simp, ?_, ?_, ?_, ?_⟩
      . by_cases hempty : whole = []
        . subst hempty
          refine .fraction hfraction ?_
          rintro rfl
          simp at hsome
        . exact .point hwhole hempty hfraction
      . rw [List.length_append, List.length_cons]
        congr 1
        omega
      . rw [List.length_append, List.length_cons, ← hdrop'']
        congr 1
        omega
      . intro mantissa' whole' fraction' hmantissa hle
        exact (hmantissa.length_le_of_point hwhole hrest' hle).1
  . next hbyte =>
    have hne : ∀ tail, rest ≠ '.' :: tail := fun tail heq => hbyte (hpoint.mpr ⟨tail, heq⟩)
    split
    . next hnone =>
      refine Or.inl ⟨rfl, ?_⟩
      intro mantissa' whole' fraction' hmantissa hle
      have hsome := (hmantissa.length_le_of_whole hwhole hrest hne hle).2
      rw [← List.length_pos_iff] at hsome
      omega
    . next hsome =>
      refine Or.inr ⟨whole, whole, [], rest, rfl, .whole hwhole ?_, rfl, hdrop, ?_⟩
      . rintro rfl
        simp at hsome
      . intro mantissa' whole' fraction' hmantissa hle
        exact (hmantissa.length_le_of_whole hwhole hrest hne hle).1

theorem IsExponent.length_le (h : IsExponent exponent' power') {letter : Char}
    (hsign : IsSign sign negative)
    (hsigned : sign = [] → ∀ c ∈ (digits ++ rest).head?, c ≠ '+' ∧ c ≠ '-')
    (hrest : ∀ c ∈ rest.head?, c.isDigit = false)
    (hle : exponent' <+: letter :: (sign ++ (digits ++ rest))) :
    exponent' = [] ∨
      exponent'.length ≤ (letter :: (sign ++ digits)).length ∧ digits ≠ [] := by
  cases h with
  | none => exact Or.inl rfl
  | @some letter' sign' digits' negative' letter_eq isSign allDigits nonempty =>
    right
    have hdigit : ∀ c ∈ digits'.head?, c ≠ '+' ∧ c ≠ '-' := by
      intro c hc
      exact not_isSign_of_isDigit_or (Or.inl (allDigits c (List.mem_of_mem_head? hc)))
    obtain ⟨rfl, hle'⟩ :=
      hsign.eq_of_prefix isSign hsigned nonempty hdigit (List.cons_prefix_cons.mp hle).2
    have hinit := allDigits.isPrefix hrest hle'
    have hlength := hinit.length_le
    rw [List.length_cons, List.length_append, List.length_cons, List.length_append]
    exact ⟨by omega, ne_nil_of_isPrefix hinit nonempty⟩

theorem exists_exponentEnd (h : bytes.drop i = encode cs) :
    ∃ exponent power, IsExponent exponent power ∧ exponent <+: cs ∧
      exponentEnd bytes i = i + exponent.length ∧
        ∀ exponent' power', IsExponent exponent' power' → exponent' <+: cs →
          exponent'.length ≤ exponent.length := by
  have hsmall := getElem?_iff h (a := 'e') (by decide)
  have hlarge := getElem?_iff h (a := 'E') (by decide)
  unfold exponentEnd
  split
  . next hbyte =>
    have hletter : ∃ letter tail, cs = letter :: tail ∧ (letter = 'e' ∨ letter = 'E') := by
      obtain hbyte | hbyte := hbyte
      . obtain ⟨tail, htail⟩ := hsmall.mp hbyte
        exact ⟨'e', tail, htail, Or.inl rfl⟩
      . obtain ⟨tail, htail⟩ := hlarge.mp hbyte
        exact ⟨'E', tail, htail, Or.inr rfl⟩
    obtain ⟨letter, tail, rfl, hletter⟩ := hletter
    have hdrop : bytes.drop (i + 1) = encode tail :=
      drop_of_append (p := [letter]) h (by obtain rfl | rfl := hletter <;> simp)
    obtain ⟨sign, negative, tail, rfl, hsign, hsigned, hsignEnd, hdrop'⟩ := exists_signEnd hdrop
    obtain ⟨digits, rest, rfl, hdigits, hrest, hstop, _⟩ := exists_digitsEnd hdrop'
    dsimp only
    rw [hsignEnd, hstop]
    split
    . next hsome =>
      have hne : digits ≠ [] := by
        rintro rfl
        simp at hsome
      refine ⟨letter :: (sign ++ digits), _, .some hletter hsign hdigits hne, ?_, ?_, ?_⟩
      . exact ⟨rest, by simp⟩
      . rw [List.length_cons, List.length_append]
        omega
      . intro exponent' power' hexponent hle
        obtain rfl | ⟨hlength, _⟩ := hexponent.length_le hsign hsigned hrest hle
        . exact Nat.zero_le _
        . exact hlength
    . next hnone =>
      -- The letter, and the sign behind it, are given back.
      refine ⟨[], 0, .none, List.nil_prefix, rfl, ?_⟩
      intro exponent' power' hexponent hle
      obtain rfl | ⟨_, hne⟩ := hexponent.length_le hsign hsigned hrest hle
      . exact Nat.le_refl _
      . rw [← List.length_pos_iff] at hne
        omega
  . next hbyte =>
    refine ⟨[], 0, .none, List.nil_prefix, rfl, ?_⟩
    intro exponent' power' hexponent hle
    rw [not_or, hsmall, hlarge] at hbyte
    cases hexponent with
    | none => exact Nat.le_refl _
    | some letter_eq isSign allDigits nonempty =>
      obtain ⟨tail, rfl⟩ := hle
      obtain rfl | rfl := letter_eq
      . exact absurd ⟨_, rfl⟩ hbyte.1
      . exact absurd ⟨_, rfl⟩ hbyte.2

/--
A numeral that a text starts with, such that no longer one does.
-/
structure Longest (p cs : List Char) (numeral : Numeral) : Prop where
  denotes : Denotes p numeral
  starts : p <+: cs
  longest : ∀ q numeral', Denotes q numeral' → q <+: cs → q.length ≤ p.length

inductive Leads (cs : List Char) : Leading → Prop where
  | nothing (none : ∀ q numeral, Denotes q numeral → ¬ q <+: cs) : Leads cs .nothing
  | infinity {p : List Char} {negative : Bool} (longest : Longest p cs (.infinity negative)) :
      Leads cs (.infinity negative)
  | decimal {p : List Char} {negative : Bool} {magnitude : Decimal}
      (longest : Longest p cs (.decimal negative magnitude)) : Leads cs (.decimal p.length)

theorem toNat_lt_of_mem_infinityChars : ∀ c ∈ infinityChars, c.toNat < 128 := by
  rw [infinityChars_eq]
  simp

theorem Denotes.cases_of_sign {q body : List Char} {numeral : Numeral} (h : Denotes q numeral)
    (hsign : IsSign sign negative) (hsigned : sign = [] → ∀ c ∈ body.head?, c ≠ '+' ∧ c ≠ '-')
    (hle : q <+: sign ++ body) :
    (q = sign ++ infinityChars ∧ infinityChars <+: body) ∨
      ∃ mantissa whole fraction exponent power, IsMantissa mantissa whole fraction ∧
        IsExponent exponent power ∧ q = sign ++ (mantissa ++ exponent) ∧
          mantissa ++ exponent <+: body := by
  cases h with
  | infinity isSign =>
    obtain ⟨rfl, hle'⟩ := hsign.eq_of_prefix isSign hsigned (by decide)
      (fun c hc => not_isSign_of_mem_head?_infinityChars hc) hle
    exact Or.inl ⟨rfl, hle'⟩
  | decimal isSign isMantissa isExponent =>
    obtain ⟨rfl, hle'⟩ := hsign.eq_of_prefix isSign hsigned (isMantissa.append_ne_nil _)
      (fun c hc => not_isSign_of_isDigit_or (isMantissa.head hc)) hle
    exact Or.inr ⟨_, _, _, _, _, isMantissa, isExponent, rfl, hle'⟩

theorem IsMantissa.not_infinity {body : List Char} (h : IsMantissa mantissa whole fraction)
    (hle : mantissa ++ exponent <+: body) : ¬ infinityChars <+: body := by
  rintro ⟨rest, rfl⟩
  obtain ⟨tail, htail⟩ := hle
  cases hfirst : mantissa ++ exponent with
  | nil => exact h.append_ne_nil exponent hfirst
  | cons c more =>
    rw [hfirst, infinityChars_eq, List.cons_append, List.cons_append, List.cons.injEq] at htail
    have hhead : c ∈ (mantissa ++ exponent).head? := by
      rw [hfirst]
      rfl
    have hor := h.head hhead
    rw [htail.1] at hor
    revert hor
    decide

theorem length_le_of_longest (h : IsMantissa mantissa whole fraction)
    (hmantissa : mantissa'.length ≤ mantissa.length)
    (hexponent : exponent' <+: rest → exponent'.length ≤ exponent.length)
    (h' : IsExponent exponent' power') (hle : mantissa' ++ exponent' <+: mantissa ++ rest) :
    mantissa'.length + exponent'.length ≤ mantissa.length + exponent.length := by
  obtain ⟨more, rfl⟩ := List.prefix_of_prefix_length_le ((List.prefix_append _ _).trans hle)
    (List.prefix_append _ _) hmantissa
  rw [List.append_assoc, List.prefix_append_right_inj] at hle
  cases more with
  | nil =>
    have hlength := hexponent hle
    rw [List.append_nil]
    omega
  | cons c more =>
    -- No exponent starts inside of a mantissa.
    cases exponent' with
    | nil =>
      rw [List.length_append, List.length_nil]
      omega
    | cons d exponent' =>
      rw [List.cons_append, List.cons_prefix_cons] at hle
      have hletter := not_isDigit_of_isLetter (h'.head rfl)
      have hor := h.isDigit_or c (by simp)
      rw [← hle.1] at hor
      simp [hletter] at hor

theorem leads_leading (cs : List Char) : Leads cs (leading (encode cs)) := by
  obtain ⟨sign, negative, body, rfl, hsign, hsigned, hstart, hdrop⟩ :=
    exists_signEnd (i := 0) (List.drop_zero (l := encode cs))
  rw [Nat.zero_add] at hstart hdrop
  unfold leading
  dsimp only
  rw [hstart, hdrop]
  split
  . next hinfinity =>
    rw [isPrefixOf_encode_iff toNat_lt_of_mem_infinityChars] at hinfinity
    have hnegative : decide ((encode (sign ++ body)).head? = some '-'.toUInt8) = negative := by
      obtain ⟨rest, rfl⟩ := hinfinity
      rw [decide_eq_decide.mpr (head?_encode_iff (by decide))]
      cases hsign <;> rfl
    rw [hnegative]
    refine .infinity ⟨.infinity hsign, ?_, ?_⟩
    . rw [List.prefix_append_right_inj]
      exact hinfinity
    . intro q numeral' hdenotes hle
      obtain ⟨rfl, _⟩ | ⟨_, _, _, _, _, hmantissa, _, _, hle'⟩ :=
        hdenotes.cases_of_sign hsign hsigned hle
      . exact Nat.le_refl _
      . exact absurd hinfinity (hmantissa.not_infinity hle')
  . next hinfinity =>
    rw [isPrefixOf_encode_iff toNat_lt_of_mem_infinityChars] at hinfinity
    obtain ⟨hnone, hleast⟩ |
      ⟨mantissa, whole, fraction, rest, rfl, hmantissa, hsome, hdrop', hlongest⟩ :=
        mantissaEnd?_cases hdrop
    . rw [hnone]
      apply Leads.nothing
      intro q numeral hdenotes hle
      obtain ⟨_, hinit⟩ | ⟨_, _, _, _, _, hmantissa, _, _, hle'⟩ :=
        hdenotes.cases_of_sign hsign hsigned hle
      . exact hinfinity hinit
      . exact hleast _ _ _ hmantissa ((List.prefix_append _ _).trans hle')
    . obtain ⟨exponent, power, hexponent, hstarts, hstop, hlongest'⟩ := exists_exponentEnd hdrop'
      rw [hsome]
      dsimp only
      rw [hstop]
      have hlength : sign.length + mantissa.length + exponent.length =
          (sign ++ (mantissa ++ exponent)).length := by
        rw [List.length_append, List.length_append, Nat.add_assoc]
      rw [hlength]
      refine .decimal ⟨.decimal hsign hmantissa hexponent, ?_, ?_⟩
      . rw [List.prefix_append_right_inj, List.prefix_append_right_inj]
        exact hstarts
      . intro q numeral' hdenotes hle
        obtain ⟨_, hinit⟩ | ⟨_, _, _, _, _, hmantissa', hexponent', rfl, hle'⟩ :=
          hdenotes.cases_of_sign hsign hsigned hle
        . exact absurd hinit hinfinity
        . -- Neither part is longer than what the scan has found for it.
          have hfirst := hlongest _ _ _ hmantissa' ((List.prefix_append _ _).trans hle')
          have hboth :=
            length_le_of_longest hmantissa hfirst (hlongest' _ _ hexponent') hexponent' hle'
          rw [← hlength, List.length_append, List.length_append]
          omega

theorem Longest.unique {p p' : List Char} {numeral numeral' : Numeral}
    (h : Longest p cs numeral) (h' : Longest p' cs numeral') : p' = p ∧ numeral' = numeral := by
  have hle := h.longest p' numeral' h'.denotes h'.starts
  have hge := h'.longest p numeral h.denotes h.starts
  obtain ⟨more, rfl⟩ := List.prefix_of_prefix_length_le h'.starts h.starts hle
  rw [List.length_append] at hge
  obtain rfl := List.eq_nil_of_length_eq_zero (l := more) (by omega)
  rw [List.append_nil] at h ⊢
  have hread := (read?_of_denotes h'.denotes).symm.trans (read?_of_denotes h.denotes)
  exact ⟨rfl, Option.some.inj hread⟩

def Leading.ofNumeral (stop : Nat) : Numeral → Leading
  | .infinity negative => .infinity negative
  | .decimal _ _ => .decimal stop

theorem leading_of_longest {p : List Char} {numeral : Numeral} (h : Longest p cs numeral) :
    leading (encode cs) = .ofNumeral p.length numeral := by
  have hleads := leads_leading cs
  generalize leading (encode cs) = start at hleads
  cases hleads with
  | nothing none => exact absurd h.starts (none p numeral h.denotes)
  | infinity longest =>
    rw [← (h.unique longest).2]
    rfl
  | decimal longest =>
    obtain ⟨rfl, rfl⟩ := h.unique longest
    rfl

theorem Denotes.toNat_lt {p : List Char} {negative : Bool} {magnitude : Decimal}
    (h : Denotes p (.decimal negative magnitude)) : ∀ c ∈ p, c.toNat < 128 := by
  have hdigit {c : Char} (hc : c.isDigit = true ∨ c = '.') : c.toNat < 128 := by
    obtain hc | rfl := hc
    . exact toNat_lt_of_isDigit hc
    . decide
  cases h with
  | decimal isSign isMantissa isExponent =>
    rw [List.forall_mem_append, List.forall_mem_append]
    refine ⟨isSign.toNat_lt, fun c hc => hdigit (isMantissa.isDigit_or c hc), ?_⟩
    cases isExponent with
    | none => simp
    | some letter_eq isSign' allDigits nonempty =>
      rw [List.forall_mem_cons, List.forall_mem_append]
      refine ⟨?_, isSign'.toNat_lt, allDigits.toNat_lt⟩
      obtain rfl | rfl := letter_eq <;> decide

theorem Longest.take? {p : List Char} {negative : Bool} {magnitude : Decimal}
    (h : Longest p cs (.decimal negative magnitude)) : Utf8.take? cs p.length = some p := by
  obtain ⟨rest, rfl⟩ := h.starts
  rw [← length_encode h.denotes.toNat_lt]
  exact take?_append p rest

end Numeral

namespace Double

open Intake.Numeral

theorem ofText_of_longest {text : String} {p : List Char} {numeral : Numeral}
    (h : Longest p (text.toList.dropWhile isBlank) numeral) :
    ofText text = numeral.toDouble := by
  unfold ofText
  dsimp only
  rw [leading_of_longest h]
  cases numeral with
  | infinity negative => rfl
  | decimal negative magnitude =>
    simp only [Leading.ofNumeral, h.take?, Option.bind_some, read?_of_denotes h.denotes]

theorem read_of_leading {cs : List Char} {stop : Nat} (h : leading (encode cs) = .decimal stop) :
    stop ≤ (encode cs).length ∧
      ∃ p numeral, take? cs stop = some p ∧ read? p = some numeral ∧ Longest p cs numeral := by
  have hleads := leads_leading cs
  rw [h] at hleads
  cases hleads with
  | @decimal p _ _ longest =>
    refine ⟨?_, p, _, longest.take?, read?_of_denotes longest.denotes, longest⟩
    obtain ⟨tail, htail⟩ := longest.starts
    rw [← htail, encode_append, List.length_append, length_encode longest.denotes.toNat_lt]
    exact Nat.le_add_right _ _

/--
A text stands for its longest leading numeral, and for no number if there is none. The reading of
the part of the text that ends behind the numeral never fails. Which double a decimal numeral is
rounded to is said in `ofDecimal_eq_finite_iff` and `ofDecimal_eq_infinite_iff`.
-/
theorem ofText_longest (text : String) :
    ∃ blanks rest, text.toList = blanks ++ rest ∧ (∀ c ∈ blanks, isBlank c = true) ∧
      (∀ c ∈ rest.head?, isBlank c = false) ∧
      ((∃ p numeral, Longest p rest numeral ∧ ofText text = numeral.toDouble) ∨
        (∀ p numeral, Denotes p numeral → ¬ p <+: rest) ∧ ofText text = .nan) ∧
      ∀ stop, leading (encode rest) = .decimal stop → stop ≤ (encode rest).length ∧
        ∃ p numeral, take? rest stop = some p ∧ read? p = some numeral ∧
          Longest p rest numeral := by
  have hsplit := List.takeWhile_append_dropWhile (p := isBlank) (l := text.toList)
  refine ⟨_, _, hsplit.symm, ?_, ?_, ?_, fun stop => read_of_leading⟩
  . intro c hc
    exact List.mem_takeWhile_imp hc
  . intro c hc
    have hhead := List.head?_dropWhile_not isBlank text.toList
    rw [Option.mem_def] at hc
    simpa [hc] using hhead
  . have hleads := leads_leading (text.toList.dropWhile isBlank)
    generalize hleading : leading (encode (text.toList.dropWhile isBlank)) = start at hleads
    cases hleads with
    | nothing none =>
      refine Or.inr ⟨none, ?_⟩
      unfold ofText
      dsimp only
      rw [hleading]
    | infinity longest => exact Or.inl ⟨_, _, longest, ofText_of_longest longest⟩
    | decimal longest => exact Or.inl ⟨_, _, longest, ofText_of_longest longest⟩

theorem ofText_unfinished_exponent :
    ofText "\t15e+" = ofInt 15 ∧
      ∃ blanks rest p numeral, "\t15e+".toList = blanks ++ rest ∧ Longest p rest numeral ∧
        numeral.toDouble = ofInt 15 := by
  have hvalue : ofText "\t15e+" = ofInt 15 := by decide +kernel
  obtain ⟨blanks, rest, hsplit, -, -, hlongest | ⟨-, hnan⟩, -⟩ := ofText_longest "\t15e+"
  . obtain ⟨p, numeral, longest, htext⟩ := hlongest
    exact ⟨hvalue, blanks, rest, p, numeral, hsplit, longest, htext ▸ hvalue⟩
  . rw [hvalue] at hnan
    exact absurd hnan (by decide +kernel)

end Double

end Intake
