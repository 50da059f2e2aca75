import Intake.Double.Round

namespace Intake

inductive Tie where
  | up
  | even
deriving DecidableEq

namespace Finite

def unitDigits : Nat :=
  Nat.pow 5 1074

def expansion (x : Finite) : Decimal :=
  ⟨x.units * unitDigits, -1074⟩

def ReadsBack (x : Finite) (d : Decimal) : Prop :=
  Double.ofDecimal x.negative d = .finite x

instance (x : Finite) (d : Decimal) : Decidable (x.ReadsBack d) :=
  inferInstanceAs (Decidable (_ = _))

/--
Of the two neighbours of the magnitude among the multiples of `10 ^ (dropped - 1074)`, the nearer
one that reads back.
-/
def nearest? (tie : Tie) (x : Finite) (dropped : Nat) : Option Decimal :=
  let exact := x.expansion.digits
  let step := Nat.pow 10 dropped
  let below : Decimal := ⟨exact / step, dropped - 1074⟩
  let above : Decimal := ⟨exact / step + 1, dropped - 1074⟩
  let preferBelow :=
    2 * (exact % step) < step ∨ (2 * (exact % step) = step ∧ tie = .even ∧ below.digits % 2 = 0)
  (if preferBelow then [below, above] else [above, below]).find? fun d => x.ReadsBack d

/--
The decimal of fewest digits that reads back, and of those the nearest.
-/
def shortest (tie : Tie) (x : Finite) : Decimal :=
  let length := x.expansion.digitChars.length
  let found := (List.range 17).findSome? fun count => x.nearest? tie (length - (count + 1))
  (found.getD x.expansion).trim

end Finite

end Intake
