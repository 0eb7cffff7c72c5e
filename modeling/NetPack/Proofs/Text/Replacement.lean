import Mathlib.Data.List.Forall2
import NetPack.Proofs.Text.Utf8

/-!
# Text that is read without a replacement

A byte string that is read as a text without a replacement character is what this text is written as
(`readUtf8_eq_iff`). So nothing malformed is ever taken for such a text, be it cut short, overlong or a
surrogate. The argument is about one character again: a sequence that is read as a character other than the
replacement fills the ranges that its first byte promises, and these leave exactly the bytes of that character.
-/

namespace NetPack.Text

/-! ## Bytes that match -/

theorem matching_isPrefix (rs : List ByteRange) (bs : List UInt8) : matching rs bs <+: bs := by
  induction rs generalizing bs with
  | nil => exact matching_none bs ▸ List.nil_prefix
  | cons r rs ih =>
    cases bs with
    | nil => exact List.nil_prefix
    | cons b bs =>
      unfold matching
      split
      · exact List.cons_prefix_cons.mpr ⟨rfl, ih bs⟩
      · exact List.nil_prefix

/-- If there are as many bytes as ranges, each byte is in its range. -/
theorem forall₂_of_matching {rs : List ByteRange} {bs : List UInt8}
    (h : (matching rs bs).length = rs.length) :
    List.Forall₂ (fun r b => r.holds b = true) rs (matching rs bs) := by
  induction rs generalizing bs with
  | nil => exact matching_none bs ▸ .nil
  | cons r rs ih =>
    cases bs with
    | nil => cases h
    | cons b bs =>
      unfold matching at h ⊢
      split
      · rename_i hb
        rw [if_pos hb] at h
        exact .cons hb (ih (Nat.succ.inj h))
      · rename_i hb
        rw [if_neg hb] at h
        cases h

/-- No sequence starts with a continuation byte or with one that would make it overlong. -/
theorem following?_continuation (n : Nat) (h : n < 0x42) : following? (UInt8.ofNat (0x80 + n)) = none := by
  revert n
  decide

/-- No sequence starts with a byte that leads beyond the last code point. -/
theorem following?_beyond (n : Nat) (h : n < 0xb) : following? (UInt8.ofNat (0xf5 + n)) = none := by
  revert n
  decide

theorem following?_cases {b : UInt8} {ranges : List ByteRange} (h : following? b = some ranges) :
    (b.toNat < 0x80 ∧ ranges = []) ∨
    ((0xc2 ≤ b.toNat ∧ b.toNat < 0xe0) ∧ ranges = [.tail]) ∨
    ((0xe0 ≤ b.toNat ∧ b.toNat < 0xf0) ∧ ranges = [secondOfThree b.toNat, .tail]) ∨
    ((0xf0 ≤ b.toNat ∧ b.toNat < 0xf5) ∧ ranges = [secondOfFour b.toNat, .tail, .tail]) := by
  have hb : ∀ low, low ≤ b.toNat → UInt8.ofNat (low + (b.toNat - low)) = b := by
    intro low hlow
    rw [Nat.add_sub_cancel' hlow, UInt8.ofNat_toNat]
  have hlt : b.toNat < 256 := b.toNat_lt
  by_cases h1 : b.toNat < 0x80
  · have hf := following?_one b.toNat h1
    rw [UInt8.ofNat_toNat, h] at hf
    exact .inl ⟨h1, Option.some.inj hf⟩
  by_cases h2 : b.toNat < 0xc2
  · have hf := following?_continuation (b.toNat - 0x80) (by omega)
    rw [hb 0x80 (by omega), h] at hf
    cases hf
  by_cases h3 : b.toNat < 0xe0
  · have hf := following?_two (b.toNat - 0xc2) (by omega)
    rw [hb 0xc2 (by omega), h] at hf
    exact .inr (.inl ⟨⟨by omega, h3⟩, Option.some.inj hf⟩)
  by_cases h4 : b.toNat < 0xf0
  · have hf := following?_three (b.toNat - 0xe0) (by omega)
    rw [hb 0xe0 (by omega), Nat.add_sub_cancel' (by omega), h] at hf
    exact .inr (.inr (.inl ⟨⟨by omega, h4⟩, Option.some.inj hf⟩))
  by_cases h5 : b.toNat < 0xf5
  · have hf := following?_four (b.toNat - 0xf0) (by omega)
    rw [hb 0xf0 (by omega), Nat.add_sub_cancel' (by omega), h] at hf
    exact .inr (.inr (.inr ⟨⟨by omega, h5⟩, Option.some.inj hf⟩))
  · have hf := following?_beyond (b.toNat - 0xf5) (by omega)
    rw [hb 0xf5 (by omega), h] at hf
    cases hf

/-! ## The bytes of a character -/

theorem val_ofNat {v : Nat} (h : v.isValidChar) : (Char.ofNat v).val.toNat = v := by
  rw [Char.ofNat, dif_pos h]
  rfl

theorem ofNat_eq_of_toNat_eq {b : UInt8} {n : Nat} (h : b.toNat = n) : UInt8.ofNat n = b := by
  rw [← h, UInt8.ofNat_toNat]

section Bytes

variable {b x y z : UInt8}

theorem tail_bounds (h : ByteRange.tail.holds x = true) : 128 ≤ x.toNat ∧ x.toNat ≤ 191 :=
  (ByteRange.holds_iff .tail x).mp h

/-- A second byte in its range makes a sequence of three neither overlong nor a surrogate. -/
theorem secondOfThree_bounds (hx : (secondOfThree b.toNat).holds x = true) :
    (128 ≤ x.toNat ∧ x.toNat ≤ 191) ∧ (b.toNat = 0xe0 → 160 ≤ x.toNat) ∧
      (b.toNat = 0xed → x.toNat ≤ 159) := by
  rw [ByteRange.holds_iff] at hx
  unfold secondOfThree at hx
  split at hx
  · have h : 160 ≤ x.toNat ∧ x.toNat ≤ 191 := hx
    omega
  · split at hx
    · have h : 128 ≤ x.toNat ∧ x.toNat ≤ 159 := hx
      omega
    · have h : 128 ≤ x.toNat ∧ x.toNat ≤ 191 := hx
      omega

/-- A second byte in its range makes a sequence of four neither overlong nor too great. -/
theorem secondOfFour_bounds (hx : (secondOfFour b.toNat).holds x = true) :
    (128 ≤ x.toNat ∧ x.toNat ≤ 191) ∧ (b.toNat = 0xf0 → 144 ≤ x.toNat) ∧
      (b.toNat = 0xf4 → x.toNat ≤ 143) := by
  rw [ByteRange.holds_iff] at hx
  unfold secondOfFour at hx
  split at hx
  · have h : 144 ≤ x.toNat ∧ x.toNat ≤ 191 := hx
    omega
  · split at hx
    · have h : 128 ≤ x.toNat ∧ x.toNat ≤ 143 := hx
      omega
    · have h : 128 ≤ x.toNat ∧ x.toNat ≤ 191 := hx
      omega

theorem utf8EncodeChar_one (hb : b.toNat < 0x80) :
    String.utf8EncodeChar (Char.ofNat (codePoint b [])) = [b] := by
  have hv : codePoint b [] = b.toNat := rfl
  unfold String.utf8EncodeChar
  rw [hv, val_ofNat (.inl (by omega))]
  dsimp only
  rw [if_pos (by omega), UInt8.ofNat_toNat]

theorem utf8EncodeChar_two (hb : 0xc2 ≤ b.toNat ∧ b.toNat < 0xe0)
    (hx : ByteRange.tail.holds x = true) :
    String.utf8EncodeChar (Char.ofNat (codePoint b [x])) = [b, x] := by
  have hxt := tail_bounds hx
  have hv : codePoint b [x] = b.toNat % 32 * 64 + x.toNat % 64 := rfl
  unfold String.utf8EncodeChar
  rw [val_ofNat (.inl (by omega))]
  dsimp only
  rw [if_neg (by omega), if_pos (by omega), ofNat_eq_of_toNat_eq (b := b) (by omega),
    ofNat_eq_of_toNat_eq (b := x) (by omega)]

theorem utf8EncodeChar_three (hb : 0xe0 ≤ b.toNat ∧ b.toNat < 0xf0)
    (hx : (secondOfThree b.toNat).holds x = true) (hy : ByteRange.tail.holds y = true) :
    String.utf8EncodeChar (Char.ofNat (codePoint b [x, y])) = [b, x, y] := by
  have hxt := secondOfThree_bounds hx
  have hyt := tail_bounds hy
  have hv : codePoint b [x, y] = (b.toNat % 16 * 64 + x.toNat % 64) * 64 + y.toNat % 64 := rfl
  have hvalid : (codePoint b [x, y]).isValidChar := by
    unfold Nat.isValidChar
    omega
  unfold String.utf8EncodeChar
  rw [val_ofNat hvalid]
  dsimp only
  rw [if_neg (by omega), if_neg (by omega), if_pos (by omega), ofNat_eq_of_toNat_eq (b := b) (by omega),
    ofNat_eq_of_toNat_eq (b := x) (by omega), ofNat_eq_of_toNat_eq (b := y) (by omega)]

theorem utf8EncodeChar_four (hb : 0xf0 ≤ b.toNat ∧ b.toNat < 0xf5)
    (hx : (secondOfFour b.toNat).holds x = true) (hy : ByteRange.tail.holds y = true)
    (hz : ByteRange.tail.holds z = true) :
    String.utf8EncodeChar (Char.ofNat (codePoint b [x, y, z])) = [b, x, y, z] := by
  have hxt := secondOfFour_bounds hx
  have hyt := tail_bounds hy
  have hzt := tail_bounds hz
  have hv : codePoint b [x, y, z]
      = ((b.toNat % 8 * 64 + x.toNat % 64) * 64 + y.toNat % 64) * 64 + z.toNat % 64 := rfl
  have hvalid : (codePoint b [x, y, z]).isValidChar := by
    unfold Nat.isValidChar
    omega
  unfold String.utf8EncodeChar
  rw [val_ofNat hvalid]
  dsimp only
  rw [if_neg (by omega), if_neg (by omega), if_neg (by omega), ofNat_eq_of_toNat_eq (b := b) (by omega),
    ofNat_eq_of_toNat_eq (b := x) (by omega), ofNat_eq_of_toNat_eq (b := y) (by omega),
    ofNat_eq_of_toNat_eq (b := z) (by omega)]

/-- A sequence that fills its ranges is that of its character. -/
theorem utf8EncodeChar_codePoint {rest : List UInt8} {ranges : List ByteRange}
    (hf : following? b = some ranges)
    (hm : List.Forall₂ (fun r x => r.holds x = true) ranges rest) :
    String.utf8EncodeChar (Char.ofNat (codePoint b rest)) = b :: rest := by
  rcases following?_cases hf with ⟨hb, rfl⟩ | ⟨hb, rfl⟩ | ⟨hb, rfl⟩ | ⟨hb, rfl⟩
  · obtain _ | _ := hm
    exact utf8EncodeChar_one hb
  · obtain _ | ⟨hx, _ | _⟩ := hm
    exact utf8EncodeChar_two hb hx
  · obtain _ | ⟨hx, _ | ⟨hy, _ | _⟩⟩ := hm
    exact utf8EncodeChar_three hb hx hy
  · obtain _ | ⟨hx, _ | ⟨hy, _ | ⟨hz, _ | _⟩⟩⟩ := hm
    exact utf8EncodeChar_four hb hx hy hz

end Bytes

/-! ## Texts -/

/-- A character other than the replacement takes up the bytes that it is written as. -/
theorem utf8EncodeChar_readChar {b : UInt8} {bs : List UInt8} (h : (readChar b bs).1 ≠ replacement) :
    String.utf8EncodeChar (readChar b bs).1 = b :: bs.take (readChar b bs).2 := by
  unfold readChar at h ⊢
  cases hf : following? b with
  | none =>
    rw [hf] at h
    exact absurd rfl h
  | some ranges =>
    rw [hf] at h
    dsimp only at h ⊢
    by_cases hl : (matching ranges bs).length = ranges.length
    · rw [if_pos hl, ← List.prefix_iff_eq_take.mp (matching_isPrefix ranges bs)]
      exact utf8EncodeChar_codePoint hf (forall₂_of_matching hl)
    · rw [if_neg hl] at h
      exact absurd rfl h

theorem utf8_readUtf8 {bs : List UInt8} (h : replacement ∉ readUtf8 bs) : utf8 (readUtf8 bs) = bs := by
  fun_induction readUtf8 bs with
  | case1 => rfl
  | case2 b bs ih =>
    obtain ⟨hhead, htail⟩ := not_or.mp (mt List.mem_cons.mpr h)
    calc utf8 ((readChar b bs).1 :: readUtf8 (bs.drop (readChar b bs).2))
        = String.utf8EncodeChar (readChar b bs).1 ++ utf8 (readUtf8 (bs.drop (readChar b bs).2)) :=
          List.flatMap_cons ..
      _ = b :: bs.take (readChar b bs).2 ++ bs.drop (readChar b bs).2 := by
          rw [utf8EncodeChar_readChar (Ne.symm hhead), ih htail]
      _ = b :: bs := by rw [List.cons_append, List.take_append_drop]

/-- A text without a replacement character is read from exactly the bytes that it is written as. -/
theorem readUtf8_eq_iff {bs : List UInt8} {cs : List Char} (h : replacement ∉ cs) :
    readUtf8 bs = cs ↔ bs = utf8 cs := by
  constructor
  · rintro rfl
    exact (utf8_readUtf8 h).symm
  · rintro rfl
    exact readUtf8_utf8 cs

end NetPack.Text
