import Intake.Unicode.Ranges

namespace Intake

namespace Ranges

def add (first last : Nat) : Ranges → Ranges
  | [] => [(first, last)]
  | (first', last') :: rest =>
    if last + 1 < first' then (first, last) :: (first', last') :: rest
    else if last' + 1 < first then (first', last') :: add first last rest
    else add (min first first') (max last last') rest

def normalize (ranges : Ranges) : Ranges :=
  ranges.foldl (fun result (first, last) => result.add first last) []

def maxCodePoint : Nat := 0x10ffff

def gaps (next : Nat) : Ranges → Ranges
  | [] => if next ≤ maxCodePoint then [(next, maxCodePoint)] else []
  | (first, last) :: rest =>
    if next < first then (next, first - 1) :: gaps (last + 1) rest else gaps (last + 1) rest

def complement (ranges : Ranges) : Ranges :=
  gaps 0 ranges.normalize

def smallLetters : Nat × Nat := ('a'.toNat, 'z'.toNat)

def capitals : Nat × Nat := ('A'.toNat, 'Z'.toNat)

def caseDistance : Nat := 'a'.toNat - 'A'.toNat

def otherCase? : Nat × Nat → Option (Nat × Nat)
  | (first, last) =>
    if first ≤ smallLetters.2 ∧ smallLetters.1 ≤ last then
      some (max first smallLetters.1 - caseDistance, min last smallLetters.2 - caseDistance)
    else if first ≤ capitals.2 ∧ capitals.1 ≤ last then
      some (max first capitals.1 + caseDistance, min last capitals.2 + caseDistance)
    else
      none

def foldCase (ranges : Ranges) : Ranges :=
  normalize (ranges ++ ranges.filterMap otherCase?)

def ofChar (c : Char) : Ranges :=
  [(c.toNat, c.toNat)]

def digits : Ranges := [('0'.toNat, '9'.toNat)]

def letters : Ranges := [capitals, smallLetters]

def wordChars : Ranges := digits ++ [capitals, ('_'.toNat, '_'.toNat), smallLetters]

def blanks : Ranges := [(0x9, 0xd), (0x20, 0x20)]

def graphic : Ranges := [(0x21, 0x7e)]

def punctuation : Ranges := [(0x21, 0x2f), (0x3a, 0x40), (0x5b, 0x60), (0x7b, 0x7e)]

def named? : String → Option Ranges
  | "alnum" => some (digits ++ letters)
  | "alpha" => some letters
  | "ascii" => some [(0, 0x7f)]
  | "blank" => some [(0x9, 0x9), (0x20, 0x20)]
  | "cntrl" => some [(0, 0x1f), (0x7f, 0x7f)]
  | "digit" => some digits
  | "graph" => some graphic
  | "lower" => some [smallLetters]
  | "print" => some [(0x20, 0x7e)]
  | "punct" => some punctuation
  | "space" => some blanks
  | "upper" => some [capitals]
  | "word" => some wordChars
  | "xdigit" => some (digits ++ [('A'.toNat, 'F'.toNat), ('a'.toNat, 'f'.toNat)])
  | _ => none

end Ranges

end Intake
