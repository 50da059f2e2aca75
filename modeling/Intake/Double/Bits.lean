import Intake.Double.Basic

namespace Intake

namespace Finite

/--
The exponent and fraction fields. Below `2 ^ 52` units the exponent is zero and the fraction counts
units; above, the leading bit is implied.
-/
def magnitudeBits (x : Finite) : Nat :=
  if x.units < 1 <<< 52 then
    x.units
  else
    let step := x.units.log2 - 52
    (step + 1) <<< 52 + (x.units >>> step - 1 <<< 52)

end Finite

def Double.toBits : Double → Nat
  | finite x => (if x.negative then 1 <<< 63 else 0) + x.magnitudeBits
  | infinite negative => (if negative then 1 <<< 63 else 0) + 2047 <<< 52
  | nan => 4095 <<< 51

end Intake
