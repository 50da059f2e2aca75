import Intake.Step
import Intake.Unicode.Ranges

namespace Intake

structure Flags where
  ignoreCase : Bool := false
  multiLine : Bool := false
  dotAll : Bool := false
  crlf : Bool := false
  ignoreBlanks : Bool := false
deriving DecidableEq

namespace Flags

def set? (flags : Flags) (value : Bool) : Char → Option Flags
  | 'i' => some { flags with ignoreCase := value }
  | 'm' => some { flags with multiLine := value }
  | 's' => some { flags with dotAll := value }
  | 'R' => some { flags with crlf := value }
  | 'x' => some { flags with ignoreBlanks := value }
  | 'U' => some flags
  | 'u' => some flags
  | _ => none

/--
Apply the letters between `(?` and `)` or `:`. After a minus flags are cleared; no letter occurs
twice, and the minus, which occurs once, is not the last.
-/
def setAll? (flags : Flags) (letters : List Char) : Option Flags :=
  if letters.Nodup ∧ letters.getLast? ≠ some '-' then go flags true letters else none
where
  go (flags : Flags) (value : Bool) : List Char → Option Flags
    | [] => some flags
    | '-' :: rest => go flags false rest
    | c :: rest => (flags.set? value c).bind fun flags => go flags value rest

def skip (flags : Flags) (cs : List Char) : List Char :=
  if flags.ignoreBlanks then go false cs else cs
where
  go (inComment : Bool) : List Char → List Char
    | [] => []
    | c :: rest =>
      if inComment then go (c ≠ '\n') rest
      else if Unicode.whiteSpace.contains c then go false rest
      else if c = '#' then go true rest
      else c :: rest

def peek? (flags : Flags) (cs : List Char) : Option Char :=
  if flags.ignoreBlanks then
    match cs.dropWhile Unicode.whiteSpace.contains with
    | '#' :: rest => (rest.dropWhile Unicode.whiteSpace.contains).head?
    | rest => rest.head?
  else
    cs.head?

theorem skip.length_go_le (inComment : Bool) (cs : List Char) :
    (skip.go inComment cs).length ≤ cs.length := by
  fun_induction skip.go inComment cs <;> simp_all <;> omega

theorem length_skip_le (flags : Flags) (cs : List Char) : (flags.skip cs).length ≤ cs.length := by
  unfold skip
  split
  . exact skip.length_go_le false cs
  . exact Nat.le_refl _

theorem length_lt_of_skip_eq {flags : Flags} {cs rest : List Char} {c : Char}
    (h : flags.skip cs = c :: rest) : rest.length < cs.length := by
  have := flags.length_skip_le cs
  rw [h, List.length_cons] at this
  exact this

def skipping {α : Type} (flags : Flags) (step? : (cs : List Char) → Option (Step α cs))
    (cs : List Char) : Option (Step α cs) :=
  (step? (flags.skip cs)).map (·.within (flags.length_skip_le cs))

end Flags

end Intake
