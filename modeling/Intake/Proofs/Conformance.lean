import Intake.Pattern.Engine
import Intake.Proofs.Idempotence
import Intake.Proofs.Magnitude
import Intake.Proofs.Refinement

namespace Intake

theorem Coercion.eq_toDouble_of_numeric {number : Number} {n : Double} {kept : Json}
    (h : numeric (some (.num number)) = .ok (n, kept)) : n = number.toDouble := by
  cases number with
  | int value least below =>
    rw [numeric, Except.ok.injEq, Prod.mk.injEq] at h
    exact h.1.symm
  | float value =>
    obtain ⟨_, _, heq⟩ := (Except.map_eq_ok_iff _ _ _).mp h
    rw [Prod.mk.injEq] at heq
    exact heq.1.symm

namespace Definition

variable [Engine]

/--
The values that a field declares. A whole number is an integer of JSON if it is a signed 64-bit one.
-/
def Conforms : Definition → Json → Prop
  | string rule, value => ∃ text, value = .str text ∧
      (∀ pattern, rule.pattern = some pattern → pattern.isMatch text = true) ∧
        (rule.omitEmpty = true → text ≠ "")
  | number bounds, value => ∃ number, value = .num number ∧
      number.toDouble.isFinite = true ∧ bounds.check number.toDouble (some value) = .ok ()
  | integer bounds, value => ∃ number i, value = .num number ∧
      number.toDouble.isFinite = true ∧ bounds.check number.toDouble (some value) = .ok () ∧
        number.toDouble.toInt? = some i ∧
          (-9223372036854775808 ≤ i → i < 9223372036854775808 →
            ∃ least below, number = .int i least below)
  | boolean, value => ∃ b, value = .bool b

def Fits (definition : Definition) (slot : Option Json) : Prop :=
  (∃ value, slot = some value ∧ definition.Conforms value) ∨
    slot = none ∧ ∃ rule, definition = .string rule ∧ rule.omitEmpty = true

variable {rule : TextRule} {bounds : Bounds} {definition : Definition}
  {slot cleaned : Option Json} {value : Json}

theorem conforms_of_clean_string (h : (string rule).clean slot = .ok (some value)) :
    (string rule).Conforms value := by
  obtain ⟨text, _, hmatch, heq⟩ := clean_string_eq_ok_iff.mp h
  split at heq
  . simp at heq
  . next hkeep =>
    refine ⟨text, Option.some.inj heq, hmatch, ?_⟩
    rintro homit rfl
    simp [homit] at hkeep

theorem conforms_of_clean_number (h : (number bounds).clean slot = .ok (some value)) :
    (number bounds).Conforms value := by
  -- The bounds have been checked for the number that the value was given as.
  obtain ⟨n, kept, hnumeric, hcheck, heq⟩ := clean_number_eq_ok_iff.mp (clean_cleaned h)
  obtain ⟨number, rfl⟩ := Coercion.number_of_numeric hnumeric
  obtain rfl := Option.some.inj heq
  obtain rfl := Coercion.eq_toDouble_of_numeric hnumeric
  exact ⟨number, rfl, number.isFinite_toDouble, hcheck⟩

theorem conforms_of_clean_integer (h : (integer bounds).clean slot = .ok (some value)) :
    (integer bounds).Conforms value := by
  obtain ⟨n, kept, _, _, hcheck, hkept, heq⟩ := clean_integer_eq_ok_iff.mp h
  obtain rfl := Option.some.inj heq
  obtain ⟨x, y, hround, hnumeric, hscaled, hjson⟩ := Double.exists_numeric_of_toJson? hkept
  obtain ⟨i, hi⟩ := Double.exists_scaled_of_roundHalfUp hround
  obtain ⟨number, rfl⟩ := Coercion.number_of_toJson? hkept
  have hdouble := Coercion.eq_toDouble_of_numeric hnumeric
  have hint : y.toInt? = some i := Finite.toInt?_eq_some_iff.mpr (hscaled.trans hi)
  refine ⟨number, i, rfl, number.isFinite_toDouble, ?_, ?_, ?_⟩
  . have hrank : (Double.finite y).rank? = (Double.finite x).rank? := congrArg some hscaled
    rw [hround] at hcheck
    rw [← hdouble]
    exact Bounds.check_of_rank?_eq hcheck hrank _
  . rw [← hdouble]
    exact hint
  . intro least below
    rw [Double.toJson?_of_toInt? hint ⟨least, below⟩ (by omega), Option.some.injEq,
      Json.num.injEq] at hjson
    exact ⟨_, _, hjson.symm⟩

theorem conforms_of_clean (h : definition.clean slot = .ok (some value)) :
    definition.Conforms value := by
  cases definition with
  | string rule => exact conforms_of_clean_string h
  | number bounds => exact conforms_of_clean_number h
  | integer bounds => exact conforms_of_clean_integer h
  | boolean =>
    obtain ⟨b, _, heq⟩ := clean_boolean_eq_ok_iff.mp h
    exact ⟨b, Option.some.inj heq⟩

theorem fits_of_clean (h : definition.clean slot = .ok cleaned) : definition.Fits cleaned := by
  cases cleaned with
  | none =>
    obtain ⟨rule, hrule, homit, _⟩ := clean_eq_none_iff.mp h
    exact Or.inr ⟨rfl, rule, hrule, homit⟩
  | some value => exact Or.inl ⟨value, rfl, conforms_of_clean h⟩

end Definition

namespace Validator

section

variable [Engine]

structure Conforms (validator : Validator) (doc : Entries Json) : Prop where
  members : ∀ field ∈ validator.fields, field.path.sub? = none →
    field.definition.Fits (doc.get? field.path.prop.text)
  elements : ∀ field ∈ validator.fields, ∀ sub, field.path.sub? = some sub →
    ∃ elements, doc.get? field.path.prop.text = some (.arr elements) ∧
      ∀ element ∈ elements, ∃ members, element = .obj members ∧
        field.definition.Fits (Entries.get? members sub.text)

variable {schema : Schema} {validator : Validator} {document : Json} {doc out : Entries Json}

theorem Cleans.conforms (cleans : validator.Cleans doc out) : validator.Conforms out := by
  constructor
  . intro field hfield hsub
    exact Definition.fits_of_clean (cleans.members field hfield hsub)
  . intro field hfield sub hsub
    obtain ⟨_, results, _, hresults, hout⟩ := cleans.elements field hfield (by simp [hsub])
    refine ⟨results, hout, ?_⟩
    intro element helement
    obtain ⟨_, _, _, members, _, rfl, _, hclean, _⟩ :=
      List.exists_mem_of_forall₂ hresults helement
    exact ⟨members, rfl, Definition.fits_of_clean (hclean field hfield rfl sub hsub)⟩

theorem conforms_of_validate (compiled : ofSchema schema = .ok validator)
    (conflictFree : validator.ConflictFree) (wellFormed : document.WellFormed)
    (h : validator.validate document = .ok out) : validator.Conforms out := by
  cases document with
  | obj doc => exact (cleans_of_validateObject compiled conflictFree wellFormed h).conforms
  | _ => simp [validate] at h

end

theorem conforms_tags :
    ∃ validator out, ofSchema (.ofList
        [("n", .integer { gte := some (.finite (.zero false)) }), ("tags.s", .string ⟨none, true⟩),
          ("tags.done", .boolean)]) = .ok validator ∧
      validator.validate (.obj [("tags", .arr [.obj [("s", .str ""), ("done", .str "1")]]),
        ("n", .str "2.5")]) = .ok out ∧
      validator.Conforms out := by
  have hcompiled : ofSchema (.ofList
      [("n", .integer { gte := some (.finite (.zero false)) }), ("tags.s", .string ⟨none, true⟩),
        ("tags.done", .boolean)]) =
      .ok ⟨[⟨⟨⟨"n", by decide⟩, none⟩, .integer { gte := some (.finite (.zero false)) }⟩,
        ⟨⟨⟨"tags", by decide⟩, some ⟨"s", by decide⟩⟩, .string ⟨none, true⟩⟩,
        ⟨⟨⟨"tags", by decide⟩, some ⟨"done", by decide⟩⟩, .boolean⟩]⟩ := by
    decide
  have hwell : Json.WellFormed
      (.obj [("tags", .arr [.obj [("s", .str ""), ("done", .str "1")]]), ("n", .str "2.5")]) := by
    refine .obj (by decide) (List.forall_mem_cons.mpr ⟨.arr ?_, List.forall_mem_singleton.mpr ?_⟩)
    . refine List.forall_mem_singleton.mpr (.obj (by decide) ?_)
      exact List.forall_mem_cons.mpr ⟨.str "", List.forall_mem_singleton.mpr (.str "1")⟩
    . exact .str "2.5"
  have haccepted :
      validate ⟨[⟨⟨⟨"n", by decide⟩, none⟩, .integer { gte := some (.finite (.zero false)) }⟩,
          ⟨⟨⟨"tags", by decide⟩, some ⟨"s", by decide⟩⟩, .string ⟨none, true⟩⟩,
          ⟨⟨⟨"tags", by decide⟩, some ⟨"done", by decide⟩⟩, .boolean⟩]⟩
        (.obj [("tags", .arr [.obj [("s", .str ""), ("done", .str "1")]]), ("n", .str "2.5")]) =
        .ok [("tags", .arr [.obj [("done", .bool true)]]), ("n", .ofNat 3)] := by
    decide +kernel
  exact ⟨_, _, hcompiled, haccepted, conforms_of_validate hcompiled (by decide) hwell haccepted⟩

end Validator

end Intake
