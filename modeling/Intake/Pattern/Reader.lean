import Intake.Pattern.Class
import Intake.Pattern.Group
import Intake.Pattern.Repetition

/-!
This module contains the reader of patterns. The groups that are open while a pattern is read form a
stack, so that the text is read in one pass; groups, and the expressions that they build, may be
nested only to a limited depth.
-/

namespace Intake

structure Part where
  regex : Regex
  height : Nat
deriving DecidableEq

namespace Part

def empty : Part :=
  ⟨.empty, 0⟩

def ofRegex (regex : Regex) : Part :=
  ⟨regex, 0⟩

def capture (part : Part) : Part :=
  { part with height := part.height + 1 }

def loop (part : Part) (least : Nat) (most : Option Nat) : Part :=
  if least = 0 ∧ most = some 0 then empty
  else if least = 1 ∧ most = some 1 then part
  else ⟨.loop part.regex least most, part.height + 1⟩

def join (combine : Regex → Regex → Regex) : (reversed : List Part) → Part
  | [] => empty
  | [part] => part
  | last :: others =>
    { regex := others.foldl (fun regex part => combine part.regex regex) last.regex
      height := others.foldl (fun height part => max height part.height) last.height + 1 }

end Part

structure Level where
  branches : List Part := []
  parts : List Part := []
deriving DecidableEq

namespace Level

def push (level : Level) (part : Part) : Level :=
  { level with parts := part :: level.parts }

def branch (level : Level) : Level :=
  { branches := Part.join .seq level.parts :: level.branches }

def finish (level : Level) : Part :=
  Part.join .alt level.branch.branches

def loop? (level : Level) (least : Nat) (most : Option Nat) : Option Level :=
  match level.parts with
  | [] => none
  | part :: others => some { level with parts := part.loop least most :: others }

end Level

structure Enclosing where
  flags : Flags
  level : Level
  capturing : Bool
deriving DecidableEq

namespace Regex

def maxNesting : Nat := 50

def dot (flags : Flags) : Regex :=
  let excluded :=
    if flags.dotAll then [] else if flags.crlf then ['\n', '\r'] else ['\n']
  .char (Ranges.complement (excluded.flatMap Ranges.ofChar))

def lineStart (flags : Flags) : Anchor :=
  if flags.multiLine then (if flags.crlf then .crlfStart else .lineStart) else .textStart

def lineEnd (flags : Flags) : Anchor :=
  if flags.multiLine then (if flags.crlf then .crlfEnd else .lineEnd) else .textEnd

def repetition? : Char → Option (Nat × Option Nat)
  | '?' => some (0, some 1)
  | '*' => some (0, none)
  | '+' => some (1, none)
  | _ => none

def dropLazy : List Char → List Char
  | '?' :: rest => rest
  | cs => cs

theorem length_dropLazy_le (cs : List Char) : (dropLazy cs).length ≤ cs.length := by
  unfold dropLazy
  split <;> simp

def part? (flags : Flags) : (cs : List Char) → Option (Step Part cs)
  | [] => none
  | '[' :: rest =>
    (CharClass.read? flags rest).map fun step =>
      (step.map fun set => .ofRegex (.char set)).cons '['
  | '\\' :: rest =>
    (Atom.escape? flags rest).map fun step =>
      (step.map fun atom => .ofRegex atom.regex).cons '\\'
  | c :: rest =>
    let regex :=
      match c with
      | '.' => dot flags
      | '^' => .anchor (lineStart flags)
      | '$' => .anchor (lineEnd flags)
      | _ => (Atom.literal flags c).regex
    some (.one (.ofRegex regex) c rest)

/--
Read the rest of a pattern. `names` are the names of the groups before, and `stack` holds the groups
that enclose the current one.
-/
def read? (flags : Flags) (names : List (List Char)) (level : Level) (stack : List Enclosing)
    (cs : List Char) : Option Part :=
  match h : flags.skip cs with
  | [] => if stack.isEmpty then some level.finish else none
  | c :: rest =>
    have shorter := Flags.length_lt_of_skip_eq h
    if c = '(' then
      match Opening.read? flags rest with
      | none => none
      | some step =>
        have : step.rest.length < cs.length := by
          have := step.shorter
          rw [List.length_cons] at this
          omega
        let enter (inner : Flags) (names : List (List Char)) (capturing : Bool) :=
          if stack.length < maxNesting then
            read? inner names {} (⟨flags, level, capturing⟩ :: stack) step.rest
          else
            none
        match step.value with
        | .directive inner => read? inner names level stack step.rest
        | .plain inner => enter inner names false
        | .capture none => enter flags names true
        | .capture (some name) => if name ∈ names then none else enter flags (name :: names) true
    else if c = ')' then
      match stack with
      | [] => none
      | outer :: stack =>
        let part := if outer.capturing then level.finish.capture else level.finish
        read? outer.flags names (outer.level.push part) stack rest
    else if c = '|' then
      read? flags names level.branch stack rest
    else if c = '\x7b' then
      match Repetition.read? flags rest with
      | none => none
      | some step =>
        have : (dropLazy (flags.skip step.rest)).length < cs.length := by
          have := length_dropLazy_le (flags.skip step.rest)
          have := flags.length_skip_le step.rest
          have := step.shorter
          omega
        match level.loop? step.value.1 step.value.2 with
        | none => none
        | some level => read? flags names level stack (dropLazy (flags.skip step.rest))
    else
      match repetition? c with
      | some (least, most) =>
        have : (dropLazy rest).length < cs.length :=
          Nat.lt_of_le_of_lt (length_dropLazy_le rest) shorter
        match level.loop? least most with
        | none => none
        | some level => read? flags names level stack (dropLazy rest)
      | none =>
        match part? flags (c :: rest) with
        | none => none
        | some step =>
          have : step.rest.length < cs.length := by
            have := step.shorter
            rw [List.length_cons] at this
            omega
          read? flags names (level.push step.value) stack step.rest
termination_by cs.length

def ofSource? (source : String) : Option Regex :=
  match read? {} [] {} [] source.toList with
  | some part => if part.height ≤ maxNesting then some part.regex else none
  | none => none

end Regex

end Intake
