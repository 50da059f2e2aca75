import Intake.Entries

/-!
This module contains the recorded keys of a document that no field has claimed yet. They stand in a
table with the places at which they were first seen, so that those that are left over can be listed
in the order of the document.
-/

namespace Intake

structure Unclaimed where
  places : Entries Nat
deriving DecidableEq

namespace Unclaimed

def empty : Unclaimed where
  places := []

def record (unclaimed : Unclaimed) (key : String) : Unclaimed where
  places :=
    if key ∈ unclaimed.places.keys then unclaimed.places
    else unclaimed.places.insert key unclaimed.places.length

def ofKeys (keys : List String) : Unclaimed :=
  keys.foldl record empty

def claim (unclaimed : Unclaimed) (path : String) : Unclaimed where
  places := unclaimed.places.erase path

def isEmpty (unclaimed : Unclaimed) : Bool :=
  unclaimed.places.isEmpty

def leftovers (unclaimed : Unclaimed) : List String :=
  (unclaimed.places.mergeSort fun first second => first.2 ≤ second.2).map Prod.fst

end Unclaimed

end Intake
