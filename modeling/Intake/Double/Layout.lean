import Intake.Double.Shortest

namespace Intake

/--
How a finite double is written. No exponent is used if the point of its digits lies above
`leastPoint` and not above `mostPoint`.
-/
structure Layout where
  tie : Tie
  leastPoint : Int
  mostPoint : Int
  wholeEnd : String
  zero : String
  negativeZero : String

namespace Layout

def text : Layout where
  tie := .up
  leastPoint := -6
  mostPoint := 21
  wholeEnd := ""
  zero := "0"
  negativeZero := "0"

def report : Layout where
  tie := .even
  leastPoint := -5
  mostPoint := 16
  wholeEnd := ".0"
  zero := "0.0"
  negativeZero := "-0.0"

def scientific (digits : List Char) (power : Int) : List Char :=
  let fraction := digits.drop 1
  digits.take 1 ++ (if fraction.isEmpty then [] else '.' :: fraction) ++
    'e' :: (if power < 0 then '-' else '+') :: Nat.toDigits 10 power.natAbs

def ofDecimal (layout : Layout) (d : Decimal) : List Char :=
  let digits := d.digitChars
  if digits.length ≤ d.point ∧ d.point ≤ layout.mostPoint then
    digits ++ List.replicate (d.point - digits.length).toNat '0' ++ layout.wholeEnd.toList
  else if 0 < d.point ∧ d.point ≤ layout.mostPoint then
    digits.take d.point.toNat ++ '.' :: digits.drop d.point.toNat
  else if layout.leastPoint < d.point ∧ d.point ≤ 0 then
    '0' :: '.' :: (List.replicate (-d.point).toNat '0' ++ digits)
  else
    scientific digits (d.point - 1)

def ofFinite (layout : Layout) (x : Finite) : String :=
  if x.units = 0 then
    if x.negative then layout.negativeZero else layout.zero
  else
    let body := layout.ofDecimal (x.shortest layout.tie)
    String.ofList (if x.negative then '-' :: body else body)

end Layout

def Double.text : Double → String
  | finite x => Layout.text.ofFinite x
  | infinite false => "Infinity"
  | infinite true => "-Infinity"
  | nan => "NaN"

end Intake
