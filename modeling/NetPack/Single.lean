/-!
# Single-precision numbers

A number is its 32-bit IEEE 754 pattern, so that copying one never changes it: NaN payloads and
the sign of zero survive. What the conversion needs beside the pattern is the comparison of the
numbers (`equals`), the test for zero, and the rounding of a 32-bit integer (`ofInt32`).
-/

namespace NetPack

/-- A single-precision number, given by its bit pattern. -/
structure Single where
  bits : UInt32
deriving DecidableEq, Inhabited, Repr

/-- The integer nearest to `num / den`; a half goes to the even neighbour. -/
def roundEven (num den : Nat) : Nat :=
  let q := num / den
  let twice := 2 * (num % den)
  if den < twice ∨ (den = twice ∧ q % 2 = 1) then q + 1 else q

namespace Single

/-- The pattern without its sign bit. -/
def magnitude (x : Single) : Nat :=
  x.bits.toNat % 0x80000000

def isNegative (x : Single) : Bool :=
  0x80000000 ≤ x.bits.toNat

/-- The magnitude of the two infinities; a larger magnitude is not a number. -/
def infinity : Nat :=
  0x7f800000

def isNaN (x : Single) : Bool :=
  infinity < x.magnitude

/-- Both zeros, whatever their sign. -/
def isZero (x : Single) : Bool :=
  x.magnitude = 0

/-- Equality of the numbers: NaN equals nothing and the two zeros are equal. -/
def equals (x y : Single) : Bool :=
  !x.isNaN && !y.isNaN && (x.bits == y.bits || (x.isZero && y.isZero))

def zero : Single :=
  ⟨0⟩

def one : Single :=
  ⟨0x3f800000⟩

/-- The pattern of a positive integer: its leading bit gives the exponent and the next 23 bits,
rounded, the fraction. A carry out of the fraction moves into the exponent, as it should. -/
def patternOfNat (n : Nat) : Nat :=
  let k := n.log2
  (k + 127) * 0x800000 + (roundEven (n * 0x800000) (Nat.pow 2 k) - 0x800000)

/-- The number nearest to an integer, halves to even. -/
def ofInt32 (i : Int32) : Single :=
  let n := i.toInt.natAbs
  if n = 0 then zero
  else if i.toInt < 0 then ⟨UInt32.ofNat (0x80000000 + patternOfNat n)⟩
  else ⟨UInt32.ofNat (patternOfNat n)⟩

theorem equals_self_iff (x : Single) : x.equals x = true ↔ x.isNaN = false := by
  simp [equals]

example : ofInt32 16777217 = ⟨0x4b800000⟩ ∧ ofInt32 (-3) = ⟨0xc0400000⟩ := by decide

example : ofInt32 2147483647 = ⟨0x4f000000⟩ ∧ ofInt32 1 = one := by decide

end Single

end NetPack
