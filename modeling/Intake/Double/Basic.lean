/-!
This module contains double precision numbers as exact values: a finite number is a sign and a
count of the smallest positive one, so comparing and rounding are integer arithmetic. The number 1
is `one` such units.
-/

namespace Intake

def Finite.one : Nat := 1 <<< 1074

def Finite.limit : Nat := 1 <<< 2098

theorem Finite.limit_pos : 0 < Finite.limit := by
  unfold Finite.limit
  rw [Nat.one_shiftLeft]
  apply Nat.pow_pos
  decide

/--
A finite number of magnitude `units * 2 ^ (-1074)` with at most 53 significant bits. Zero has a
sign.
-/
structure Finite where
  negative : Bool
  units : Nat
  representable : ∃ significand exponent, significand < 1 <<< 53 ∧ units = significand <<< exponent
  bounded : units < Finite.limit
deriving DecidableEq

inductive Double where
  | finite (value : Finite)
  | infinite (negative : Bool)
  | nan
deriving DecidableEq

namespace Finite

def zero (negative : Bool) : Finite where
  negative
  units := 0
  representable := ⟨0, 0, by decide, by simp⟩
  bounded := Finite.limit_pos

def scaled (x : Finite) : Int :=
  if x.negative then -x.units else x.units

def toInt? (x : Finite) : Option Int :=
  if x.units % one = 0 then some (x.scaled / one) else none

theorem scaled_zero (negative : Bool) : (zero negative).scaled = 0 := by
  cases negative <;> rfl

theorem natAbs_scaled (x : Finite) : x.scaled.natAbs = x.units := by
  unfold scaled
  split <;> simp

end Finite

namespace Double

def isFinite : Double → Bool
  | finite _ => true
  | _ => false

def rank? : Double → Option Int
  | finite x => some x.scaled
  | infinite true => some (-Finite.limit)
  | infinite false => some Finite.limit
  | nan => none

def le (x y : Double) : Bool :=
  match x.rank?, y.rank? with
  | some i, some j => i ≤ j
  | _, _ => false

def lt (x y : Double) : Bool :=
  match x.rank?, y.rank? with
  | some i, some j => i < j
  | _, _ => false

def toInt? : Double → Option Int
  | finite x => x.toInt?
  | _ => none

@[simp]
theorem le_finite (x y : Finite) : (finite x).le (finite y) = decide (x.scaled ≤ y.scaled) := rfl

@[simp]
theorem lt_finite (x y : Finite) : (finite x).lt (finite y) = decide (x.scaled < y.scaled) := rfl

@[simp]
theorem le_nan (x : Double) : x.le nan = false := by
  rcases x with x | (_ | _) | _ <;> rfl

@[simp]
theorem nan_le (x : Double) : nan.le x = false := rfl

@[simp]
theorem lt_nan (x : Double) : x.lt nan = false := by
  rcases x with x | (_ | _) | _ <;> rfl

@[simp]
theorem nan_lt (x : Double) : nan.lt x = false := rfl

end Double

end Intake
