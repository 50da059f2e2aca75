import Intake.Double.Round
import Intake.Utf8

/-!
This module contains numerals: an optional sign and then `Infinity` or digits with an optional point
and exponent. A text stands for the double of its longest leading numeral, blanks before it and
anything after it being ignored. The end of that numeral is found on the bytes of the text.
-/

namespace Intake

inductive Numeral where
  | infinity (negative : Bool)
  | decimal (negative : Bool) (magnitude : Decimal)
deriving DecidableEq

namespace Numeral

def toDouble : Numeral → Double
  | infinity negative => .infinite negative
  | decimal negative magnitude => .ofDecimal negative magnitude

/--
The blanks that may stand before a numeral: the space separators of Unicode, the line separators,
the byte order mark and five control characters. The next line control U+0085 is none of them.
-/
def isBlank (c : Char) : Bool :=
  c ∈ ['\t', '\n', '\x0b', '\x0c', '\r', ' ', '\u00a0', '\u1680', '\u2028', '\u2029', '\u202f',
    '\u205f', '\u3000', '\ufeff'] || ('\u2000' ≤ c && c ≤ '\u200a')

def infinityChars : List Char :=
  "Infinity".toList

def splitSign : List Char → List Char × List Char
  | '+' :: rest => (['+'], rest)
  | '-' :: rest => (['-'], rest)
  | cs => ([], cs)

def splitDigits (cs : List Char) : List Char × List Char :=
  (cs.takeWhile Char.isDigit, cs.dropWhile Char.isDigit)

def splitFraction (afterDigits : Bool) : List Char → List Char × List Char
  | '.' :: rest =>
    let (digits, rest') := splitDigits rest
    if afterDigits || !digits.isEmpty then ('.' :: digits, rest') else ([], '.' :: rest)
  | cs => ([], cs)

def exponent? : List Char → Option Int
  | [] => some 0
  | c :: cs =>
    let (sign, digits) := splitSign cs
    if (c = 'e' || c = 'E') && !digits.isEmpty && digits.all Char.isDigit then
      let value : Int := Nat.ofDigitChars 10 digits 0
      some (if sign = ['-'] then -value else value)
    else
      none

def read? (cs : List Char) : Option Numeral :=
  let (sign, cs) := splitSign cs
  let negative := sign = ['-']
  if cs = infinityChars then
    some (infinity negative)
  else
    let (whole, cs) := splitDigits cs
    let (fraction, cs) := splitFraction (!whole.isEmpty) cs
    if whole.isEmpty && fraction.isEmpty then none
    else
      (exponent? cs).map fun exponent =>
        decimal negative (.ofParts whole (fraction.drop 1) exponent)

def isDigitByte (b : UInt8) : Bool :=
  '0'.toUInt8 ≤ b && b ≤ '9'.toUInt8

def digitsEnd (bytes : List UInt8) (start : Nat) : Nat :=
  start + ((bytes.drop start).takeWhile isDigitByte).length

def signEnd (bytes : List UInt8) (start : Nat) : Nat :=
  if bytes[start]? = some '+'.toUInt8 ∨ bytes[start]? = some '-'.toUInt8 then start + 1 else start

def mantissaEnd? (bytes : List UInt8) (start : Nat) : Option Nat :=
  let whole := digitsEnd bytes start
  if bytes[whole]? = some '.'.toUInt8 then
    let fraction := digitsEnd bytes (whole + 1)
    if whole - start + (fraction - (whole + 1)) = 0 then none else some fraction
  else if whole - start = 0 then none
  else some whole

def exponentEnd (bytes : List UInt8) (start : Nat) : Nat :=
  if bytes[start]? = some 'e'.toUInt8 ∨ bytes[start]? = some 'E'.toUInt8 then
    let digits := signEnd bytes (start + 1)
    let stop := digitsEnd bytes digits
    if digits < stop then stop else start
  else start

inductive Leading where
  | nothing
  | infinity (negative : Bool)
  | decimal (stop : Nat)
deriving DecidableEq

def leading (bytes : List UInt8) : Leading :=
  let start := signEnd bytes 0
  if (Utf8.encode infinityChars).isPrefixOf (bytes.drop start) then
    .infinity (bytes.head? = some '-'.toUInt8)
  else
    match mantissaEnd? bytes start with
    | some stop => .decimal (exponentEnd bytes stop)
    | none => .nothing

end Numeral

def Double.ofText (text : String) : Double :=
  let cs := text.toList.dropWhile Numeral.isBlank
  match Numeral.leading (Utf8.encode cs) with
  | .nothing => .nan
  | .infinity negative => .infinite negative
  | .decimal stop =>
    match (Utf8.take? cs stop).bind Numeral.read? with
    | some numeral => numeral.toDouble
    | none => .nan

end Intake
