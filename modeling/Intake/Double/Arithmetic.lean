import Intake.Double.Round

namespace Intake

open Intake.Finite

def Finite.half : Finite where
  negative := false
  units := 1 <<< 1073
  representable := ⟨1, 1073, by decide, rfl⟩
  bounded := by decide +kernel

namespace Double

def neg : Double → Double
  | finite x => finite { x with negative := !x.negative }
  | infinite negative => infinite !negative
  | nan => nan

def ofScaled (i : Int) : Double :=
  ofRatio (i < 0) i.natAbs 1

def add : Double → Double → Double
  | finite x, finite y =>
    if x.scaled + y.scaled = 0 then finite (.zero (x.negative && y.negative))
    else ofScaled (x.scaled + y.scaled)
  | infinite a, infinite b => if a = b then infinite a else nan
  | infinite a, finite _ => infinite a
  | finite _, infinite a => infinite a
  | nan, _ => nan
  | _, nan => nan

def sub (x y : Double) : Double :=
  x.add y.neg

def floor : Double → Double
  | finite x => if x.units = 0 then finite x else ofInt (x.scaled / one)
  | x => x

def trunc : Double → Double
  | finite x => ofRatio x.negative (x.units / one * one) 1
  | x => x

def fract (x : Double) : Double :=
  x.sub x.trunc

def isZero : Double → Bool
  | finite x => x.units = 0
  | _ => false

def roundHalfUp (x : Double) : Double :=
  if (finite half).le (x.sub x.floor) then x.floor.add (ofInt 1) else x.floor

def toInt64 : Double → Int
  | finite x => max (-9223372036854775808) (min 9223372036854775807 (x.scaled.tdiv one))
  | infinite true => -9223372036854775808
  | infinite false => 9223372036854775807
  | nan => 0

theorem toInt64_bounds (x : Double) :
    -9223372036854775808 ≤ x.toInt64 ∧ x.toInt64 < 9223372036854775808 := by
  unfold toInt64
  split <;> omega

end Double

end Intake
