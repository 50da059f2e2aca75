namespace Intake

namespace CodePoint

def hexDigit? (c : Char) : Option Nat :=
  if c.isDigit then some (c.toNat - '0'.toNat)
  else if 'a' ≤ c && c ≤ 'f' then some (c.toNat - 'a'.toNat + 10)
  else if 'A' ≤ c && c ≤ 'F' then some (c.toNat - 'A'.toNat + 10)
  else none

def ofHex? (digits : List Char) : Option Nat :=
  digits.foldlM (fun number c => (hexDigit? c).map (16 * number + ·)) 0

def toChar? (n : Nat) : Option Char :=
  if h : n.isValidChar then some (.ofNatAux n h) else none

end CodePoint

end Intake
