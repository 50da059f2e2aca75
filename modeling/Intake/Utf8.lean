/-!
This module contains texts as bytes. A position in a text is the count of the bytes before it.
-/

namespace Intake

namespace Utf8

def encode (cs : List Char) : List UInt8 :=
  cs.flatMap String.utf8EncodeChar

/--
The characters before a position. There are none if it lies inside of a character or beyond the end.
-/
def take? : List Char → Nat → Option (List Char)
  | _, 0 => some []
  | [], _ + 1 => none
  | c :: cs, n + 1 =>
    if c.utf8Size ≤ n + 1 then (take? cs (n + 1 - c.utf8Size)).map (c :: ·) else none

end Utf8

end Intake
