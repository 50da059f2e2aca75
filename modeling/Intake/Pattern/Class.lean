import Intake.Pattern.Escape

namespace Intake

namespace CharClass

inductive Phase where
  | fresh
  | dashes
  | inside
deriving DecidableEq

def named? : (cs : List Char) → Option (Step Ranges cs)
  | ':' :: rest =>
    let negated := rest.head? = some '^'
    let start := if negated then rest.drop 1 else rest
    let name := start.takeWhile (· ≠ ':')
    match h : start.dropWhile (· ≠ ':') with
    | ':' :: ']' :: rest' => do
      let set ← Ranges.named? (String.ofList name)
      return ⟨if negated then set.complement else set, rest', by
        have hle := (List.dropWhile_suffix (l := start) (· ≠ ':')).length_le
        have hstart : start.length ≤ rest.length := by
          simp only [start]
          split <;> simp
        rw [h] at hle
        simp only [List.length_cons] at hle ⊢
        omega⟩
    | _ => none
  | _ => none

def item? (flags : Flags) : (cs : List Char) → Option (Step Atom cs)
  | [] => none
  | '\\' :: rest => (Atom.escape? flags rest).map (.cons '\\')
  | c :: rest => some (.one (.char c) c rest)

def itemRanges? : Atom → Option Ranges
  | .char c => some (.ofChar c)
  | .set set => some set
  | .anchor _ => none

def range? : Atom → Atom → Option Ranges
  | .char first, .char last =>
    if first ≤ last then some [(first.toNat, last.toNat)] else none
  | _, _ => none

def itemOrRange? (flags : Flags) (cs : List Char) : Option (Step Ranges cs) := do
  let first ← item? flags cs
  match h : flags.skip first.rest with
  | [] => none
  | '-' :: rest =>
    if flags.peek? rest = some ']' ∨ flags.peek? rest = some '-' then
      let set ← itemRanges? first.value
      return ⟨set, '-' :: rest, by
        have hle := flags.length_skip_le first.rest
        have := first.shorter
        rw [h] at hle
        omega⟩
    else
      let last ← item? flags (flags.skip rest)
      let set ← range? first.value last.value
      return ⟨set, last.rest, by
        have := flags.length_skip_le rest
        have := Flags.length_lt_of_skip_eq h
        have := first.shorter
        have := last.shorter
        omega⟩
  | _ =>
    let set ← itemRanges? first.value
    return ⟨set, first.rest, first.shorter⟩

def isOperation : List Char → Bool
  | c :: c' :: _ => c = c' && (c = '&' || c = '-' || c = '~')
  | _ => false

def items? (flags : Flags) (phase : Phase) (cs : List Char) : Option (Step Ranges cs) :=
  match h : flags.skip cs with
  | [] => none
  | c :: rest =>
    have shorter := Flags.length_lt_of_skip_eq h
    if c = '-' ∧ phase ≠ .inside then
      (items? flags .dashes rest).map fun step =>
        (step.map (Ranges.ofChar '-' ++ ·)).within (Nat.le_of_lt shorter)
    else if c = ']' ∧ phase = .fresh then
      (items? flags .inside rest).map fun step =>
        (step.map (Ranges.ofChar ']' ++ ·)).within (Nat.le_of_lt shorter)
    else if c = ']' then
      some ⟨[], rest, shorter⟩
    else if c = '[' then
      match named? rest with
      | none => none
      | some set =>
        have shorter' := Nat.lt_trans set.shorter shorter
        (items? flags .inside set.rest).map fun step =>
          (step.map (set.value ++ ·)).within (Nat.le_of_lt shorter')
    else if isOperation (c :: rest) then
      none
    else
      match itemOrRange? flags (c :: rest) with
      | none => none
      | some set =>
        have shorter' := Nat.lt_of_lt_of_le set.shorter shorter
        (items? flags .inside set.rest).map fun step =>
          (step.map (set.value ++ ·)).within (Nat.le_of_lt shorter')
termination_by cs.length

def read? (flags : Flags) (cs : List Char) : Option (Step Ranges cs) :=
  let start := flags.skip cs
  let negated := start.head? = some '^'
  (items? flags .fresh (if negated then start.drop 1 else start)).map fun step =>
    (step.map fun ranges =>
      let set := if flags.ignoreCase then ranges.normalize.foldCase else ranges.normalize
      if negated then set.complement else set).within (by
        have := flags.length_skip_le cs
        simp only [start]
        split
        . simp only [List.length_drop]
          omega
        . exact this)

end CharClass

end Intake
