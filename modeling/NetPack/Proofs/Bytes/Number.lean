import NetPack.Buffer.Table
import NetPack.Bytes.LittleEndian

/-!
# Numbers in an image

Reading the number of a width at a position of an image is decoding the bytes that stand there
(`numberAt_toArray`), and decoding gives back every number that fits its width (`decode_encode`). So
the only thing to know about a number in an image is which bytes stand at its position. Whatever they are,
the number fits its width (`numberAt_lt`).
-/

namespace NetPack

namespace LittleEndian

theorem decode_encode {width n : Nat} (h : n < Nat.pow 256 width) : decode (encode width n) = n := by
  induction width generalizing n with
  | zero =>
    have hn : n = 0 := by
      simp only [Nat.pow] at h
      omega
    subst hn
    rfl
  | succ w ih =>
    have hw : n / 256 < Nat.pow 256 w := by
      apply Nat.div_lt_of_lt_mul
      rw [Nat.mul_comm]
      exact h
    rw [encode, decode, ih hw, UInt8.toNat_ofNat']
    omega

theorem encode_decode (bs : List UInt8) : encode bs.length (decode bs) = bs := by
  induction bs with
  | nil => rfl
  | cons b bs ih =>
    have hb := b.toNat_lt
    rw [List.length_cons, encode, decode, Nat.add_mul_div_left _ _ (by decide), Nat.div_eq_of_lt hb, Nat.zero_add,
      ih]
    congr 1
    rw [← UInt8.toNat_inj, UInt8.toNat_ofNat']
    omega

end LittleEndian

namespace Buffer.Image

theorem byteAt_toArray (bs : List UInt8) (i : Nat) : byteAt bs.toArray i = bs.getD i 0 := by
  simp [byteAt]

/-- A number that lies in the image is what its bytes decode to. -/
theorem numberAt_toArray {bs : List UInt8} {width i : Nat} (h : i + width ≤ bs.length) :
    numberAt bs.toArray width i = LittleEndian.decode ((bs.drop i).take width) := by
  induction width generalizing i with
  | zero => simp [numberAt, LittleEndian.decode]
  | succ w ih =>
    have hi : i < bs.length := by omega
    rw [numberAt, ih (by omega), byteAt_toArray, List.drop_eq_getElem_cons hi, List.take_succ_cons,
      LittleEndian.decode, List.getD_eq_getElem?_getD, List.getElem?_eq_getElem hi, Option.getD_some]

theorem numberAt_lt (b : Image) (width i : Nat) : b.numberAt width i < Nat.pow 256 width := by
  induction width generalizing i with
  | zero => exact Nat.one_pos
  | succ w ih =>
    have hbyte := (b.byteAt i).toNat_lt
    have hrest := ih (i + 1)
    rw [numberAt]
    show _ < Nat.pow 256 w * 256
    omega

end Buffer.Image

end NetPack
