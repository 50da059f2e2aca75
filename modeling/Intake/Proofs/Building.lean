import Mathlib.Logic.Function.Basic
import Intake.Definition

namespace Intake

def Double.literal : Double → Json
  | finite value => .num (.float value)
  | _ => .null

/--
Reading its source again leads to the same pattern. This can fail of patterns that the library has
read with other options.
-/
def Pattern.IsPlain [Engine] (pattern : Pattern) : Prop :=
  ofSource pattern.source = .ok pattern

theorem Pattern.isPlain_of_ofSource [Engine] {source : String} {pattern : Pattern}
    (h : ofSource source = .ok pattern) : pattern.IsPlain := by
  unfold IsPlain
  rw [source_of_ofSource h, h]

inductive Setter [Engine] where
  | matching (pattern : Pattern)
  | matchingSource (source : String)
  | omittingEmpty
  | bound (limit : Limit) (value : Double)

namespace Setter

variable [Engine]

def setting : Setter → Setting
  | matching _ | matchingSource _ => .pattern
  | omittingEmpty => .omitEmpty
  | bound limit _ => .limit limit

def literal : Setter → Json
  | matching pattern => .str pattern.source
  | matchingSource source => .str source
  | omittingEmpty => .bool true
  | bound _ value => value.literal

def outcome (type : FieldType) (setters : List Setter) : Setting → Option Json
  | .type => some (.str type.name)
  | setting => (setters.reverse.find? (·.setting = setting)).map literal

end Setter

namespace Definition

variable [Engine]

inductive Sets : Definition → Setter → Definition → Prop where
  | matching (rule : TextRule) (pattern : Pattern) :
    Sets (string rule) (.matching pattern) (string (rule.matching pattern))
  | matchingSource {rule next : TextRule} {source : String}
      (h : rule.matchingSource source = .ok next) :
    Sets (string rule) (.matchingSource source) (string next)
  | omittingEmpty (rule : TextRule) :
    Sets (string rule) .omittingEmpty (string rule.omittingEmpty)
  | numberBound (bounds : Bounds) (limit : Limit) (value : Double) :
    Sets (number bounds) (.bound limit value) (number (bounds.set limit value))
  | integerBound (bounds : Bounds) (limit : Limit) (value : Double) :
    Sets (integer bounds) (.bound limit value) (integer (bounds.set limit value))

inductive Builds (type : FieldType) : List Setter → Definition → Prop where
  | start : Builds type [] (ofType type)
  | call {setters : List Setter} {setter : Setter} {definition next : Definition}
      (h : Builds type setters definition) (hsets : Sets definition setter next) :
    Builds type (setters ++ [setter]) next

def IsPlain (definition : Definition) : Prop :=
  ∀ rule pattern, definition = string rule → rule.pattern = some pattern → pattern.IsPlain

def setting? : Definition → Setting → Option Json
  | definition, .type => some (.str definition.type.name)
  | string rule, .pattern => rule.pattern.map (.str ·.source)
  | string rule, .omitEmpty => if rule.omitEmpty then some (.bool true) else none
  | number bounds, .limit limit => (bounds.get limit).map Double.literal
  | integer bounds, .limit limit => (bounds.get limit).map Double.literal
  | _, _ => none

variable {definition next : Definition} {setter : Setter} {setters : List Setter}
  {type : FieldType}

theorem setting?_matching (rule : TextRule) (pattern : Pattern) :
    (string (rule.matching pattern)).setting? =
      Function.update (string rule).setting? .pattern (some (.str pattern.source)) := by
  funext setting
  cases setting <;> rfl

theorem setting?_set {kind : Bounds → Definition} (hkind : kind = number ∨ kind = integer)
    (bounds : Bounds) (limit : Limit) (value : Double) :
    (kind (bounds.set limit value)).setting? =
      Function.update (kind bounds).setting? (.limit limit) (some value.literal) := by
  obtain rfl | rfl := hkind
  all_goals
    funext setting
    cases setting with
    | limit other =>
      by_cases h : limit = other
      . subst h
        simp [setting?]
      . simp [setting?, Bounds.get_set_of_ne _ h, Ne.symm h]
    | _ => rfl

theorem setting?_of_sets (h : Sets definition setter next) :
    next.setting? = Function.update definition.setting? setter.setting (some setter.literal) := by
  cases h with
  | matching rule pattern => exact setting?_matching rule pattern
  | matchingSource h =>
    unfold TextRule.matchingSource at h
    split at h
    . next pattern heq =>
      rw [Except.ok.injEq] at h
      rw [← h, setting?_matching, Pattern.source_of_ofSource heq]
      rfl
    . simp at h
  | omittingEmpty rule =>
    funext setting
    cases setting <;> rfl
  | numberBound bounds limit value => exact setting?_set (Or.inl rfl) bounds limit value
  | integerBound bounds limit value => exact setting?_set (Or.inr rfl) bounds limit value

theorem type_of_sets (h : Sets definition setter next) : next.type = definition.type := by
  cases h <;> rfl

theorem setting?_ofType (type : FieldType) :
    (ofType type).setting? = Setter.outcome type [] := by
  funext setting
  cases setting with
  | limit limit => cases type <;> cases limit <;> rfl
  | _ => cases type <;> rfl

theorem type_of_builds (h : Builds type setters definition) : definition.type = type := by
  induction h with
  | start => exact type_ofType type
  | call _ hsets ih => rw [type_of_sets hsets, ih]

theorem outcome_append (type : FieldType) (setters : List Setter) (setter : Setter) :
    Setter.outcome type (setters ++ [setter]) =
      Function.update (Setter.outcome type setters) setter.setting (some setter.literal) := by
  funext setting
  by_cases h : setting = setter.setting
  . subst h
    cases setter <;> simp [Setter.outcome, Setter.setting]
  . rw [Function.update_of_ne h]
    cases setting with
    | type => rfl
    | _ => simp [Setter.outcome, Ne.symm h]

theorem setting?_of_builds (h : Builds type setters definition) :
    definition.setting? = Setter.outcome type setters := by
  induction h with
  | start => exact setting?_ofType type
  | call _ hsets ih => rw [setting?_of_sets hsets, ih, outcome_append]

end Definition

end Intake
