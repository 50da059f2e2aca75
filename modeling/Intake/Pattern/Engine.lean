import Intake.Pattern
import Intake.Pattern.Reader

/-!
This module contains the library of regular expressions that the program runs with. It has no limit
on the size of an expression.
-/

namespace Intake

structure Expression where
  source : String
  regex : Regex
deriving DecidableEq

instance : Engine where
  Pattern := Expression
  decidableEq := inferInstance
  ofSource source :=
    match Regex.ofSource? source with
    | some regex => .ok ⟨source, regex⟩
    | none => .error "not a regular expression"
  source := Expression.source
  isMatch expression := expression.regex.isMatch
  source_of_ofSource := by
    intro text expression h
    split at h
    . rw [← Except.ok.inj h]
    . simp at h

end Intake
