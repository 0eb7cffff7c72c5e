/-!
# Little-endian numbers

A number of a fixed width is written with its lowest byte first. A byte string splits into the
numbers of one width that it holds (`split`).
-/

namespace NetPack.LittleEndian

/-- The lowest `width` bytes of a number. -/
def encode : Nat → Nat → List UInt8
  | 0, _ => []
  | width + 1, n => UInt8.ofNat n :: encode width (n / 256)

/-- The number that bytes stand for. -/
def decode : List UInt8 → Nat
  | [] => 0
  | b :: bs => b.toNat + 256 * decode bs

@[simp] theorem length_encode (width n : Nat) : (encode width n).length = width := by
  induction width generalizing n with
  | zero => rfl
  | succ w ih => simp [encode, ih]

/-- The numbers of a width of at least one byte in a byte string; a rest that is too short makes a
number of its own. -/
def split (width : Nat) : List UInt8 → List Nat
  | [] => []
  | b :: bs => decode ((b :: bs).take width) :: split width (bs.drop (width - 1))
termination_by bs => bs.length
decreasing_by
  simp only [List.length_drop, List.length_cons]
  omega

example : split 2 [1, 2, 3, 4] = [513, 1027] := by cbv

end NetPack.LittleEndian
