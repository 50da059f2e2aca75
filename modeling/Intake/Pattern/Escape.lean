import Intake.CodePoint
import Intake.Pattern.Flags
import Intake.Pattern.Regex

namespace Intake

inductive Atom where
  | char (c : Char)
  | set (set : Ranges)
  | anchor (anchor : Anchor)
deriving DecidableEq

namespace Atom

def regex : Atom → Regex
  | char c => .char (.ofChar c)
  | set s => .char s
  | anchor a => .anchor a

def literal (flags : Flags) (c : Char) : Atom :=
  if flags.ignoreCase then
    match Ranges.otherCase? (c.toNat, c.toNat) with
    | some other => set (Ranges.add other.1 other.2 (.ofChar c))
    | none => char c
  else
    char c

def braced? (flags : Flags) (allowed : Char → Bool) (cs : List Char) :
    Option (Step (List Char) cs) :=
  match h : flags.skip cs with
  | [] => none
  | c :: rest =>
    have shorter := Flags.length_lt_of_skip_eq h
    if c = '\x7d' then
      some ⟨[], rest, shorter⟩
    else if allowed c then
      (braced? flags allowed rest).map fun step =>
        (step.map (c :: ·)).within (Nat.le_of_lt shorter)
    else
      none
termination_by cs.length

def counted? (flags : Flags) : (count : Nat) → (cs : List Char) → Option (Step (List Char) cs)
  | 0, _ => none
  | count + 1, cs =>
    match h : flags.skip cs with
    | [] => none
    | c :: rest =>
      have shorter := Flags.length_lt_of_skip_eq h
      if count = 0 then
        some ⟨[c], rest, shorter⟩
      else
        (counted? flags count rest).map fun step =>
          (step.map (c :: ·)).within (Nat.le_of_lt shorter)

def hex? (flags : Flags) (count : Nat) (cs : List Char) : Option (Step Atom cs) := do
  let digits ← match h : flags.skip cs with
    | '\x7b' :: rest =>
      (braced? flags (fun c => (CodePoint.hexDigit? c).isSome) rest).map
        (·.within (Nat.le_of_lt (Flags.length_lt_of_skip_eq h)))
    | _ => counted? flags count cs
  if digits.value.isEmpty then
    none
  else
    let c ← (CodePoint.ofHex? digits.value).bind CodePoint.toChar?
    return digits.map fun _ => literal flags c

def boundaryName? : String → Option Anchor
  | "start" => some .wordStart
  | "end" => some .wordEnd
  | "start-half" => some .wordStartHalf
  | "end-half" => some .wordEndHalf
  | _ => none

def inBoundaryName (c : Char) : Bool :=
  c.isAlpha || c = '-'

def boundary? (flags : Flags) : (cs : List Char) → Option (Step Atom ('b' :: cs))
  | '\x7b' :: rest =>
    match flags.skip rest with
    | [] => none
    | c :: _ =>
      if inBoundaryName c then do
        let name ← braced? flags inBoundaryName rest
        let kind ← boundaryName? (String.ofList name.value)
        return ((name.map fun _ => anchor kind).cons '\x7b').cons 'b'
      else
        some (.one (anchor .wordBoundary) 'b' ('\x7b' :: rest))
  | cs => some (.one (anchor .wordBoundary) 'b' cs)

def letter? (flags : Flags) : Char → Option Atom
  | 'd' => some (set Ranges.digits)
  | 'D' => some (set Ranges.digits.complement)
  | 's' => some (set Ranges.blanks)
  | 'S' => some (set Ranges.blanks.complement)
  | 'w' => some (set Ranges.wordChars)
  | 'W' => some (set Ranges.wordChars.complement)
  | 'a' => some (literal flags '\x07')
  | 'f' => some (literal flags '\x0c')
  | 't' => some (literal flags '\t')
  | 'n' => some (literal flags '\n')
  | 'r' => some (literal flags '\r')
  | 'v' => some (literal flags '\x0b')
  | 'A' => some (anchor .textStart)
  | 'z' => some (anchor .textEnd)
  | 'B' => some (anchor .notWordBoundary)
  | '<' => some (anchor .wordStart)
  | '>' => some (anchor .wordEnd)
  | _ => none

def standsForItself (c : Char) : Bool :=
  c.toNat < 128 && !c.isAlphanum && c ≠ '<' && c ≠ '>'

def escape? (flags : Flags) : (cs : List Char) → Option (Step Atom cs)
  | [] => none
  | 'x' :: rest => (hex? flags 2 rest).map (.cons 'x')
  | 'u' :: rest => (hex? flags 4 rest).map (.cons 'u')
  | 'U' :: rest => (hex? flags 8 rest).map (.cons 'U')
  | 'b' :: rest => boundary? flags rest
  | c :: rest =>
    let atom := if standsForItself c then some (literal flags c) else letter? flags c
    atom.map fun atom => .one atom c rest

end Atom

end Intake
