import Intake.Pattern.Flags
import Intake.Unicode.Alphabetic
import Intake.Unicode.Numeric

namespace Intake

inductive Opening where
  | capture (name : Option (List Char))
  | plain (flags : Flags)
  | directive (flags : Flags)
deriving DecidableEq

namespace Opening

def startsName (c : Char) : Bool :=
  c = '_' || Unicode.alphabetic.contains c

def continuesName (c : Char) : Bool :=
  startsName c || c = '.' || c = '[' || c = ']' || Unicode.numeric.contains c

def isName : List Char → Bool
  | [] => false
  | c :: rest => startsName c && rest.all continuesName

def name? (cs : List Char) : Option (Step Opening cs) :=
  let name := cs.takeWhile (· ≠ '>')
  match h : cs.dropWhile (· ≠ '>') with
  | [] => none
  | _ :: rest =>
    if isName name then
      some ⟨capture (some name), rest, by
        have := (List.dropWhile_suffix (l := cs) (· ≠ '>')).length_le
        rw [h, List.length_cons] at this
        exact this⟩
    else
      none

def endsFlags (c : Char) : Bool :=
  c = ':' || c = ')'

def flags? (flags : Flags) (cs : List Char) : Option (Step Opening cs) :=
  let letters := cs.takeWhile (!endsFlags ·)
  match h : cs.dropWhile (!endsFlags ·) with
  | [] => none
  | c :: rest =>
    have shorter : rest.length < cs.length := by
      have := (List.dropWhile_suffix (l := cs) (!endsFlags ·)).length_le
      rw [h, List.length_cons] at this
      exact this
    match flags.setAll? letters with
    | none => none
    | some flags' =>
      if c = ':' then some ⟨plain flags', rest, shorter⟩
      else if letters.isEmpty then none
      else some ⟨directive flags', rest, shorter⟩

def start? (flags : Flags) : (cs : List Char) → Option (Step Opening ('(' :: cs))
  | '?' :: '=' :: _ | '?' :: '!' :: _ | '?' :: '<' :: '=' :: _ | '?' :: '<' :: '!' :: _ => none
  | '?' :: 'P' :: '<' :: rest =>
    (name? rest).map fun step => (((step.cons '<').cons 'P').cons '?').cons '('
  | '?' :: '<' :: rest => (name? rest).map fun step => ((step.cons '<').cons '?').cons '('
  | '?' :: rest => (flags? flags rest).map fun step => (step.cons '?').cons '('
  | rest => some (.one (capture none) '(' rest)

def read? (flags : Flags) (cs : List Char) : Option (Step Opening ('(' :: cs)) :=
  (start? flags (flags.skip cs)).map (·.within (Nat.succ_le_succ (flags.length_skip_le cs)))

end Opening

end Intake
