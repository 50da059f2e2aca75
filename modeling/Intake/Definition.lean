import Intake.Bounds
import Intake.Coercion
import Intake.Pattern

/-!
This module contains the definitions of fields and the cleaning of a single value: it is converted
to the declared type and checked, in this order.
-/

namespace Intake

variable [Engine]

structure TextRule where
  pattern : Option Pattern := none
  omitEmpty : Bool := false
deriving DecidableEq

namespace TextRule

def matching (rule : TextRule) (pattern : Pattern) : TextRule :=
  { rule with pattern := some pattern }

def matchingSource (rule : TextRule) (source : String) : Except Rejection TextRule :=
  match Pattern.ofSource source with
  | .ok pattern => .ok (rule.matching pattern)
  | .error detail => .error (.of (.malformedPattern source detail) none)

def omittingEmpty (rule : TextRule) : TextRule :=
  { rule with omitEmpty := true }

def check (rule : TextRule) (text : String) (found : Option Json) :
    Except Rejection (Option Json) :=
  match rule.pattern.filter (!·.isMatch text) with
  | some pattern => .error (.of (.noMatch pattern.source) found)
  | none => .ok (if rule.omitEmpty && text = "" then none else some (.str text))

end TextRule

inductive Definition where
  | string (rule : TextRule)
  | number (bounds : Bounds)
  | integer (bounds : Bounds)
  | boolean
deriving DecidableEq

namespace Definition

def type : Definition → FieldType
  | string _ => .string
  | number _ => .number
  | integer _ => .integer
  | boolean => .boolean

def ofType : FieldType → Definition
  | .string => string {}
  | .number => number {}
  | .integer => integer {}
  | .boolean => boolean

def checkBounds : Definition → Except Rejection Unit
  | number bounds => bounds.checkFinite
  | integer bounds => bounds.checkFinite
  | _ => .ok ()

/--
The value to keep for a value, or for its absence. There is none if the field is to be left out.
-/
def clean (definition : Definition) (value : Option Json) : Except Rejection (Option Json) :=
  match definition with
  | string rule => do
    let text ← Coercion.text value
    rule.check text value
  | number bounds => do
    let (n, kept) ← Coercion.numeric value
    bounds.check n value
    return some kept
  | integer bounds => do
    let n ← Coercion.integer value
    bounds.check n value
    return some (← Coercion.emit n value)
  | boolean => do
    let b ← Coercion.boolean value
    return some (.bool b)

@[simp]
theorem type_ofType (type : FieldType) : (ofType type).type = type := by
  cases type <;> rfl

end Definition

end Intake
