namespace Intake

structure Decimal where
  digits : Nat
  exponent : Int
deriving DecidableEq

namespace Decimal

def ofParts (whole fraction : List Char) (exponent : Int) : Decimal :=
  ⟨Nat.ofDigitChars 10 (whole ++ fraction) 0, exponent - fraction.length⟩

def digitChars (d : Decimal) : List Char :=
  Nat.toDigits 10 d.digits

/--
The power of ten that belongs to the digits if a point is put before the first of them.
-/
def point (d : Decimal) : Int :=
  d.exponent + d.digitChars.length

def trim (d : Decimal) : Decimal :=
  go d.digits.log2 d.digits d.exponent
where
  go : Nat → Nat → Int → Decimal
    | 0, digits, exponent => ⟨digits, exponent⟩
    | fuel + 1, digits, exponent =>
      if digits % 10 = 0 then go fuel (digits / 10) (exponent + 1) else ⟨digits, exponent⟩

end Decimal

end Intake
