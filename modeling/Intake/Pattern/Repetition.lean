import Intake.Pattern.Flags

namespace Intake

namespace Repetition

def maxCount : Nat := 4294967295

def digits? (flags : Flags) : (cs : List Char) → Option (Step (List Char) cs)
  | [] => none
  | c :: rest =>
    have hle := flags.length_skip_le rest
    if c.isDigit then
      match digits? flags (flags.skip rest) with
      | some step =>
        some ((step.map (c :: ·)).within (Nat.le_succ_of_le hle))
      | none => some ⟨[c], flags.skip rest, Nat.lt_succ_of_le hle⟩
    else
      none
termination_by cs => cs.length

def dropBlanks (cs : List Char) : List Char :=
  cs.dropWhile Unicode.whiteSpace.contains

theorem length_dropBlanks_le (cs : List Char) : (dropBlanks cs).length ≤ cs.length :=
  (List.dropWhile_suffix Unicode.whiteSpace.contains).length_le

def count? (flags : Flags) (cs : List Char) : Option (Step Nat cs) := do
  let digits ← digits? flags (dropBlanks cs)
  let count := Nat.ofDigitChars 10 digits.value 0
  if count ≤ maxCount then
    let step := (digits.map fun _ => count).within (length_dropBlanks_le cs)
    return (step.trim flags.skip flags.length_skip_le).trim dropBlanks length_dropBlanks_le
  else
    none

def close? (least most : Nat) : (cs : List Char) → Option (Step (Nat × Option Nat) cs)
  | '\x7d' :: rest =>
    if least ≤ most then some (.one (least, some most) '\x7d' rest) else none
  | _ => none

def most? (flags : Flags) (least : Nat) : (cs : List Char) → Option (Step (Nat × Option Nat) cs)
  | '\x7d' :: rest => some (.one (least, none) '\x7d' rest)
  | cs => do
    let most ← count? flags cs
    most.andThen (close? least)

def afterLeast? (flags : Flags) (least : Nat) :
    (cs : List Char) → Option (Step (Nat × Option Nat) cs)
  | '\x7d' :: rest => some (.one (least, some least) '\x7d' rest)
  | ',' :: rest => (flags.skipping (most? flags least) rest).map (.cons ',')
  | _ => none

def read? (flags : Flags) (cs : List Char) : Option (Step (Nat × Option Nat) cs) := do
  let least ← flags.skipping (count? flags) cs
  least.andThen (afterLeast? flags)

end Repetition

end Intake
