import NetPack.Failure

/-!
# Narrow integers

A packed network holds 32-bit integers only. An attribute or a dimension outside their range is
refused, whereas an element is moved to the nearest bound and the change is reported. The bounds are
symmetric, so that the unlimited ends of a slice stay each other's negatives.
-/

namespace NetPack

/-- A 64-bit integer as an unsigned 32-bit one, if it is in range. -/
def unsigned? (v : Int64) : Option UInt32 :=
  if 0 ≤ v.toInt ∧ v.toInt < 0x100000000 then some (UInt32.ofNat v.toInt.toNat) else none

/-- A 64-bit integer as a signed 32-bit one, if it is in range. -/
def signed? (v : Int64) : Option Int32 :=
  if -0x80000000 ≤ v.toInt ∧ v.toInt < 0x80000000 then some (Int32.ofInt v.toInt) else none

/-- The greatest element of a constant; its negative is the least one. -/
def elementBound : Int :=
  0x7fffffff

/-- The element nearest to a 64-bit integer. -/
def saturate (v : Int64) : Int32 :=
  Int32.ofInt (max (-elementBound) (min elementBound v.toInt))

/-- The report of a 64-bit integer that is not its own nearest element. -/
def clampReport? (tensor : String) (v : Int64) : Option Diagnostic :=
  if (saturate v).toInt = v.toInt then none else some (.valueClamped tensor v (saturate v))

/-- The elements nearest to 64-bit integers, with a report of each one that differs. -/
def narrow (tensor : String) (vs : List Int64) : Reported (List Int32) :=
  ⟨vs.filterMap (clampReport? tensor), .ok (vs.map saturate)⟩

example : unsigned? (-1) = none ∧ unsigned? 4294967295 = some 4294967295 ∧ signed? 2147483648 = none := by
  decide

example : saturate (-2147483648) = -2147483647 ∧ saturate 9223372036854775807 = 2147483647 := by
  decide

end NetPack
