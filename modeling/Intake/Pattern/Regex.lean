import Intake.Pattern.CharSet

/-!
This module contains regular expressions and the places of a text that they lead to. A set of places
is a natural number whose bit `i` stands for the place before the character `i`; an expression
matches a part of a text if it leads from any place to any other.
-/

namespace Intake

inductive Anchor where
  | textStart
  | textEnd
  | lineStart
  | lineEnd
  | crlfStart
  | crlfEnd
  | wordBoundary
  | notWordBoundary
  | wordStart
  | wordEnd
  | wordStartHalf
  | wordEndHalf
deriving DecidableEq

namespace Anchor

def isWordChar : Option Char → Bool
  | some c => Ranges.wordChars.contains c
  | none => false

def holds (anchor : Anchor) (before after : Option Char) : Bool :=
  match anchor with
  | textStart => before = none
  | textEnd => after = none
  | lineStart => before = none || before = some '\n'
  | lineEnd => after = none || after = some '\n'
  | crlfStart =>
    before = none || before = some '\n' || (before = some '\r' && after ≠ some '\n')
  | crlfEnd =>
    after = none || after = some '\r' || (after = some '\n' && before ≠ some '\r')
  | wordBoundary => isWordChar before ≠ isWordChar after
  | notWordBoundary => isWordChar before = isWordChar after
  | wordStart => !isWordChar before && isWordChar after
  | wordEnd => isWordChar before && !isWordChar after
  | wordStartHalf => !isWordChar before
  | wordEndHalf => !isWordChar after

end Anchor

inductive Regex where
  | empty
  | char (set : Ranges)
  | anchor (anchor : Anchor)
  | seq (first second : Regex)
  | alt (left right : Regex)
  | loop (body : Regex) (least : Nat) (most : Option Nat)
deriving DecidableEq

namespace Regex

def placesBefore (set : Ranges) : List Char → Nat
  | [] => 0
  | c :: rest => (if set.contains c then 1 else 0) + 2 * placesBefore set rest

def placesOf (anchor : Anchor) (before : Option Char) : List Char → Nat
  | [] => if anchor.holds before none then 1 else 0
  | c :: rest =>
    (if anchor.holds before (some c) then 1 else 0) + 2 * placesOf anchor (some c) rest

def iterate (step : Nat → Nat) : (count : Nat) → (places : Nat) → Nat
  | 0, places => places
  | count + 1, places =>
    let next := step places
    -- a step that changes nothing will not change anything later
    if next = places then places else iterate step count next

/--
The places to which the expression leads from any of the places `start`. Without an upper limit a
loop is repeated once for each place of the text, after which it finds no new one.
-/
def reach (text : List Char) : Regex → (start : Nat) → Nat
  | empty, start => start
  | char set, start => (start &&& placesBefore set text) <<< 1
  | anchor a, start => start &&& placesOf a none text
  | seq first second, start => second.reach text (first.reach text start)
  | alt left right, start => left.reach text start ||| right.reach text start
  | loop body least most, start =>
    let more := match most with
      | some most => most - least
      | none => text.length + 1
    iterate (fun places => places ||| body.reach text places) more
      (iterate (body.reach text) least start)

def isMatch (regex : Regex) (text : String) : Bool :=
  regex.reach text.toList (1 <<< (text.toList.length + 1) - 1) ≠ 0

end Regex

end Intake
