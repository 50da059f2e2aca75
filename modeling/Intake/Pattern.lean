/-!
This module contains patterns, the regular expressions that a schema can ask texts to match. They
come from a library, of which is known only that a pattern has the source that it is read from.
-/

namespace Intake

/--
A library of regular expressions. If a source cannot be read, then a text says why.
-/
class Engine where
  Pattern : Type
  decidableEq : DecidableEq Pattern
  ofSource : String → Except String Pattern
  source : Pattern → String
  isMatch : Pattern → String → Bool
  source_of_ofSource : ∀ {text pattern}, ofSource text = .ok pattern → source pattern = text

def Pattern [Engine] : Type :=
  Engine.Pattern

variable [Engine]

instance : DecidableEq Pattern :=
  Engine.decidableEq

namespace Pattern

def ofSource (source : String) : Except String Pattern :=
  Engine.ofSource source

def source (pattern : Pattern) : String :=
  Engine.source pattern

def isMatch (pattern : Pattern) (text : String) : Bool :=
  Engine.isMatch pattern text

theorem source_of_ofSource {source : String} {pattern : Pattern}
    (h : ofSource source = .ok pattern) : pattern.source = source :=
  Engine.source_of_ofSource h

end Pattern

end Intake
