import Intake.Double.Arithmetic
import Intake.Numeral
import Intake.Rejection.Basic

namespace Intake

def Double.int64Limit : Double :=
  .ofInt 9223372036854775808

def Double.toJson? (n : Double) : Option Json :=
  if n.fract.isZero && (int64Limit.neg.le n && n.lt int64Limit) then
    some (.num (.int n.toInt64 n.toInt64_bounds.1 (Int.lt_trans n.toInt64_bounds.2 (by decide))))
  else
    match n with
    | finite x => some (.num (.float x))
    | _ => none

namespace Coercion

def notConvertible (value : Json) : Rejection :=
  .of (.notConvertible value.typeName) (some value)

def text : Option Json → Except Rejection String
  | none => .ok ""
  | some (.str value) => .ok value
  | some (.bool value) => .ok (toString value)
  | some (.num (.int value _ _)) => .ok (toString value)
  | some (.num (.float value)) => .ok (Double.finite value).text
  | some value => .error (notConvertible value)

def boolean : Option Json → Except Rejection Bool
  | none => .ok false
  | some (.bool value) => .ok value
  | some (.str value) =>
    if value = "true" ∨ value = "1" then .ok true
    else if value = "false" ∨ value = "0" ∨ value = "" then .ok false
    else .error (.of .notBooleanText (some (.str value)))
  | some (.num value) =>
    if value.toDouble.toInt? = some 1 then .ok true
    else if value.toDouble.toInt? = some 0 then .ok false
    else .error (.of .notBooleanNumber (some (.num value)))
  | some value => .error (notConvertible value)

def emit (n : Double) (found : Option Json) : Except Rejection Json :=
  match n.toJson? with
  | some value => .ok value
  | none => .error (.of .notFinite found)

/--
The double that a value stands for, and the value to keep. JSON integers are kept as they are, even
if they are no doubles.
-/
def numeric : Option Json → Except Rejection (Double × Json)
  | none => .ok (.finite (.zero false), .ofNat 0)
  | some (.num (.int value least below)) =>
    .ok (.ofInt value, .num (.int value least below))
  | some (.num (.float value)) =>
    (emit (.finite value) (some (.num (.float value)))).map (.finite value, ·)
  | some (.str value) =>
    let n := Double.ofText value
    if n.isFinite then (emit n (some (.str value))).map (n, ·)
    else .error (.of .notFinite (some (.str value)))
  | some value => .error (notConvertible value)

def number (value : Option Json) : Except Rejection Double :=
  (numeric value).map Prod.fst

def integer (value : Option Json) : Except Rejection Double :=
  (number value).map Double.roundHalfUp

end Coercion

end Intake
