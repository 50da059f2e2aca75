import Intake.Numeral

namespace Intake

namespace Numeral

inductive IsSign : List Char → Bool → Prop where
  | none : IsSign [] false
  | plus : IsSign ['+'] false
  | minus : IsSign ['-'] true

def AllDigits (cs : List Char) : Prop :=
  ∀ c ∈ cs, c.isDigit = true

inductive IsMantissa : List Char → List Char → List Char → Prop where
  | whole {whole : List Char} (digits : AllDigits whole) (nonempty : whole ≠ []) :
      IsMantissa whole whole []
  | point {whole fraction : List Char} (digits : AllDigits whole) (nonempty : whole ≠ [])
      (digits' : AllDigits fraction) : IsMantissa (whole ++ '.' :: fraction) whole fraction
  | fraction {fraction : List Char} (digits : AllDigits fraction) (nonempty : fraction ≠ []) :
      IsMantissa ('.' :: fraction) [] fraction

inductive IsExponent : List Char → Int → Prop where
  | none : IsExponent [] 0
  | some {letter : Char} {sign digits : List Char} {negative : Bool}
      (letter_eq : letter = 'e' ∨ letter = 'E') (isSign : IsSign sign negative)
      (allDigits : AllDigits digits) (nonempty : digits ≠ []) :
      IsExponent (letter :: (sign ++ digits))
        (if negative then -(Nat.ofDigitChars 10 digits 0 : Int) else Nat.ofDigitChars 10 digits 0)

inductive Denotes : List Char → Numeral → Prop where
  | infinity {sign : List Char} {negative : Bool} (isSign : IsSign sign negative) :
      Denotes (sign ++ infinityChars) (.infinity negative)
  | decimal {sign mantissa whole fraction exponent : List Char} {negative : Bool} {power : Int}
      (isSign : IsSign sign negative) (isMantissa : IsMantissa mantissa whole fraction)
      (isExponent : IsExponent exponent power) :
      Denotes (sign ++ (mantissa ++ exponent))
        (.decimal negative (.ofParts whole fraction power))

variable {sign mantissa whole fraction exponent digits cs : List Char} {negative : Bool}
  {power : Int} {c : Char} {numeral : Numeral}

theorem IsSign.negative_eq (h : IsSign sign negative) : decide (sign = ['-']) = negative := by
  cases h <;> rfl

theorem AllDigits.nil : AllDigits [] := by
  simp [AllDigits]

theorem AllDigits.head (h : AllDigits digits) (nonempty : digits ≠ [])
    (hc : c ∈ (digits ++ cs).head?) : c.isDigit = true := by
  cases digits with
  | nil => exact absurd rfl nonempty
  | cons d digits =>
    rw [List.cons_append, List.head?_cons, Option.mem_some_iff] at hc
    exact hc ▸ h d List.mem_cons_self

theorem IsMantissa.append_ne_nil (h : IsMantissa mantissa whole fraction) (cs : List Char) :
    mantissa ++ cs ≠ [] := by
  cases h with
  | whole digits nonempty => simp [nonempty]
  | point digits nonempty digits' => simp
  | fraction digits nonempty => simp

theorem IsMantissa.head (h : IsMantissa mantissa whole fraction)
    (hc : c ∈ (mantissa ++ cs).head?) : c.isDigit = true ∨ c = '.' := by
  cases h with
  | whole digits nonempty => exact Or.inl (digits.head nonempty hc)
  | point digits nonempty digits' =>
    rw [List.append_assoc] at hc
    exact Or.inl (digits.head nonempty hc)
  | fraction digits nonempty =>
    rw [List.cons_append, List.head?_cons, Option.mem_some_iff] at hc
    exact Or.inr hc.symm

theorem IsExponent.head (h : IsExponent exponent power) (hc : c ∈ exponent.head?) :
    c = 'e' ∨ c = 'E' := by
  cases h with
  | none => simp at hc
  | some letter_eq isSign allDigits nonempty =>
    rw [List.head?_cons, Option.mem_some_iff] at hc
    exact hc ▸ letter_eq

theorem not_isSign_of_isDigit_or (h : c.isDigit = true ∨ c = '.') : c ≠ '+' ∧ c ≠ '-' := by
  constructor
  all_goals
    rintro rfl
    revert h
    decide

theorem infinityChars_eq : infinityChars = ['I', 'n', 'f', 'i', 'n', 'i', 't', 'y'] := by
  decide

theorem not_isSign_of_mem_head?_infinityChars (h : c ∈ infinityChars.head?) :
    c ≠ '+' ∧ c ≠ '-' := by
  obtain rfl := Option.some.inj h
  decide

theorem not_isDigit_of_isLetter (h : c = 'e' ∨ c = 'E') : c.isDigit = false ∧ c ≠ '.' := by
  obtain rfl | rfl := h <;> decide

theorem splitSign_append (h : IsSign sign negative) (hcs : ∀ c ∈ cs.head?, c ≠ '+' ∧ c ≠ '-') :
    splitSign (sign ++ cs) = (sign, cs) := by
  cases h with
  | none =>
    cases cs with
    | nil => rfl
    | cons c cs =>
      obtain ⟨hplus, hminus⟩ := hcs c rfl
      unfold splitSign
      split <;> simp_all
  | plus => rfl
  | minus => rfl

theorem splitDigits_append (h : AllDigits whole) (hcs : ∀ c ∈ cs.head?, c.isDigit = false) :
    splitDigits (whole ++ cs) = (whole, cs) := by
  unfold splitDigits
  rw [List.takeWhile_append_of_pos h, List.dropWhile_append_of_pos h]
  cases cs with
  | nil => simp
  | cons c cs => simp [hcs c rfl]

theorem splitFraction_of_ne (b : Bool) (hcs : ∀ c ∈ cs.head?, c ≠ '.') :
    splitFraction b cs = ([], cs) := by
  unfold splitFraction
  split
  . next rest => exact absurd rfl (hcs '.' rfl)
  . rfl

theorem splitFraction_point (b : Bool) (h : AllDigits fraction)
    (hcs : ∀ c ∈ cs.head?, c.isDigit = false) (hsome : (b || !fraction.isEmpty) = true) :
    splitFraction b ('.' :: (fraction ++ cs)) = ('.' :: fraction, cs) := by
  unfold splitFraction
  simp only [splitDigits_append h hcs]
  rw [if_pos hsome]

theorem isEmpty_eq_false (h : cs ≠ []) : cs.isEmpty = false := by
  simpa using h

theorem split_mantissa (h : IsMantissa mantissa whole fraction)
    (hcs : ∀ c ∈ cs.head?, c.isDigit = false ∧ c ≠ '.') :
    ∃ rest pointed, splitDigits (mantissa ++ cs) = (whole, rest) ∧
      splitFraction (!whole.isEmpty) rest = (pointed, cs) ∧ pointed.drop 1 = fraction ∧
        (whole.isEmpty && pointed.isEmpty) = false := by
  have hdigit : ∀ c ∈ cs.head?, c.isDigit = false := fun c hc => (hcs c hc).1
  cases h with
  | whole digits nonempty =>
    refine ⟨cs, [], splitDigits_append digits hdigit, ?_, rfl, ?_⟩
    . exact splitFraction_of_ne _ (fun c hc => (hcs c hc).2)
    . rw [isEmpty_eq_false nonempty, Bool.false_and]
  | point digits nonempty digits' =>
    refine ⟨'.' :: (fraction ++ cs), '.' :: fraction, ?_, ?_, rfl, Bool.and_false _⟩
    . rw [List.append_assoc]
      exact splitDigits_append digits (by simp)
    . rw [isEmpty_eq_false nonempty]
      exact splitFraction_point _ digits' hdigit rfl
  | fraction digits nonempty =>
    refine ⟨'.' :: (fraction ++ cs), '.' :: fraction, ?_, ?_, rfl, Bool.and_false _⟩
    . exact splitDigits_append .nil (by simp)
    . exact splitFraction_point _ digits hdigit (by rw [isEmpty_eq_false nonempty]; rfl)

theorem exponent?_of_isExponent (h : IsExponent exponent power) :
    exponent? exponent = some power := by
  cases h with
  | none => rfl
  | @some letter sign digits _ letter_eq isSign allDigits nonempty =>
    have hsplit : splitSign (sign ++ digits) = (sign, digits) := by
      apply splitSign_append isSign
      intro c hc
      rw [← List.append_nil digits] at hc
      exact not_isSign_of_isDigit_or (Or.inl (allDigits.head nonempty hc))
    have hvalid : ((letter = 'e' || letter = 'E') && !digits.isEmpty && digits.all Char.isDigit) =
        true := by
      rw [isEmpty_eq_false nonempty, List.all_eq_true.mpr allDigits]
      simpa using letter_eq
    simp only [exponent?, hsplit]
    rw [if_pos hvalid, ← isSign.negative_eq]
    simp only [decide_eq_true_eq]

theorem read?_of_denotes (h : Denotes cs numeral) : read? cs = some numeral := by
  cases h with
  | @infinity sign _ isSign =>
    have hsplit : splitSign (sign ++ infinityChars) = (sign, infinityChars) :=
      splitSign_append isSign fun c hc => not_isSign_of_mem_head?_infinityChars hc
    unfold read?
    simp only [hsplit, isSign.negative_eq]
    rfl
  | @decimal sign mantissa whole fraction exponent _ _ isSign isMantissa isExponent =>
    have hsplit : splitSign (sign ++ (mantissa ++ exponent)) = (sign, mantissa ++ exponent) :=
      splitSign_append isSign fun c hc => not_isSign_of_isDigit_or (isMantissa.head hc)
    have hne : mantissa ++ exponent ≠ infinityChars := by
      intro heq
      have hhead : 'I' ∈ (mantissa ++ exponent).head? := by
        rw [heq]
        decide
      have hor := isMantissa.head hhead
      revert hor
      decide
    obtain ⟨rest, pointed, hdigits, hfraction, hdrop, hsome⟩ :=
      split_mantissa isMantissa fun c hc => not_isDigit_of_isLetter (isExponent.head hc)
    unfold read?
    simp only [hsplit, isSign.negative_eq, if_neg hne, hdigits, hfraction, hdrop, hsome,
      exponent?_of_isExponent isExponent]
    rfl

end Numeral

end Intake
