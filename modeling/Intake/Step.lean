/-!
This module contains the result of one reading step: what was read from the start of a text, and
the rest, which is shorter than the text. Readers that repeat a step end because of it. A step in
the end of a text becomes one in the whole text by `cons` or `within`.
-/

namespace Intake

structure Step (α : Type) (text : List Char) where
  value : α
  rest : List Char
  shorter : rest.length < text.length

namespace Step

variable {α β : Type} {text : List Char}

def map (f : α → β) (step : Step α text) : Step β text :=
  { step with value := f step.value }

def one (value : α) (c : Char) (rest : List Char) : Step α (c :: rest) where
  value
  rest
  shorter := Nat.lt_succ_self rest.length

def cons (c : Char) (step : Step α text) : Step α (c :: text) :=
  { step with shorter := Nat.lt_succ_of_lt step.shorter }

def within {text' : List Char} (step : Step α text) (h : text.length ≤ text'.length) :
    Step α text' :=
  { step with shorter := Nat.lt_of_lt_of_le step.shorter h }

def trim (step : Step α text) (f : List Char → List Char)
    (h : ∀ cs, (f cs).length ≤ cs.length) : Step α text :=
  { step with
    rest := f step.rest
    shorter := Nat.lt_of_le_of_lt (h step.rest) step.shorter }

def andThen (step : Step α text) (f : α → (rest : List Char) → Option (Step β rest)) :
    Option (Step β text) :=
  (f step.value step.rest).map fun next => next.within (Nat.le_of_lt step.shorter)

end Step

end Intake
