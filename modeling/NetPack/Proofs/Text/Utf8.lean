import NetPack.Text.Utf8

/-!
# Written text is read back

The bytes of a text are read as that text (`readUtf8_utf8`), so a byte string is well formed exactly if
it is what some text is written as. The argument is about one character: its bytes start with a byte
that promises exactly the ranges in which the others lie, overlong forms and surrogates being the
reason for the narrower ranges.
-/

namespace NetPack.Text

theorem ByteRange.holds_iff (r : ByteRange) (b : UInt8) :
    r.holds b = true ↔ r.low.toNat ≤ b.toNat ∧ b.toNat ≤ r.high.toNat := by
  simp [holds, UInt8.le_iff_toNat_le]

/-- A byte string whose first byte promises what follows is read as one character. -/
theorem readChar_of_matching {b : UInt8} {bs rest : List UInt8} {ranges : List ByteRange}
    (hf : following? b = some ranges) (hm : matching ranges bs = rest)
    (hl : rest.length = ranges.length) :
    readChar b bs = (Char.ofNat (codePoint b rest), rest.length) := by
  simp only [readChar, hf, hm, hl, if_true]

section Matching

variable {r₁ r₂ r₃ : ByteRange} {x₁ x₂ x₃ : UInt8} (bs : List UInt8)

theorem matching_none : matching [] bs = [] := by
  simp [matching]

theorem matching_one (h₁ : r₁.holds x₁ = true) : matching [r₁] ([x₁] ++ bs) = [x₁] := by
  simp [matching, h₁]

theorem matching_two (h₁ : r₁.holds x₁ = true) (h₂ : r₂.holds x₂ = true) :
    matching [r₁, r₂] ([x₁, x₂] ++ bs) = [x₁, x₂] := by
  simp [matching, h₁, h₂]

theorem matching_three (h₁ : r₁.holds x₁ = true) (h₂ : r₂.holds x₂ = true)
    (h₃ : r₃.holds x₃ = true) :
    matching [r₁, r₂, r₃] ([x₁, x₂, x₃] ++ bs) = [x₁, x₂, x₃] := by
  simp [matching, h₁, h₂, h₃]

end Matching

/-- The range of the second byte of a sequence of three. -/
def secondOfThree (n : Nat) : ByteRange :=
  if n = 0xe0 then ⟨0xa0, 0xbf⟩ else if n = 0xed then ⟨0x80, 0x9f⟩ else .tail

/-- The range of the second byte of a sequence of four. -/
def secondOfFour (n : Nat) : ByteRange :=
  if n = 0xf0 then ⟨0x90, 0xbf⟩ else if n = 0xf4 then ⟨0x80, 0x8f⟩ else .tail

theorem following?_one (n : Nat) (h : n < 0x80) : following? (UInt8.ofNat n) = some [] := by
  revert n
  decide

theorem following?_two (n : Nat) (h : n < 0x1e) :
    following? (UInt8.ofNat (0xc2 + n)) = some [.tail] := by
  revert n
  decide

theorem following?_three (n : Nat) (h : n < 0x10) :
    following? (UInt8.ofNat (0xe0 + n)) = some [secondOfThree (0xe0 + n), .tail] := by
  revert n
  decide

theorem following?_four (n : Nat) (h : n < 5) :
    following? (UInt8.ofNat (0xf0 + n)) = some [secondOfFour (0xf0 + n), .tail, .tail] := by
  revert n
  decide

theorem toNat_ofNat {n : Nat} (h : n < 256) : (UInt8.ofNat n).toNat = n := by
  rw [UInt8.toNat_ofNat']
  omega

theorem holds_tail (n : Nat) : ByteRange.tail.holds (UInt8.ofNat (n % 64 + 128)) = true := by
  rw [ByteRange.holds_iff, toNat_ofNat (by omega)]
  show 128 ≤ _ ∧ _ ≤ 191
  omega

theorem holds_secondOfThree {v : Nat} (hl : 0x7ff < v) (hs : v < 0xd800 ∨ 0xdfff < v)
    (hu : v ≤ 0xffff) :
    (secondOfThree (0xe0 + v / 4096)).holds (UInt8.ofNat (v / 64 % 64 + 128)) = true := by
  rw [ByteRange.holds_iff, toNat_ofNat (by omega)]
  unfold secondOfThree
  split
  · show 160 ≤ _ ∧ _ ≤ 191
    omega
  · split
    · show 128 ≤ _ ∧ _ ≤ 159
      omega
    · show 128 ≤ _ ∧ _ ≤ 191
      omega

theorem holds_secondOfFour {v : Nat} (hl : 0xffff < v) (hu : v < 0x110000) :
    (secondOfFour (0xf0 + v / 262144)).holds (UInt8.ofNat (v / 4096 % 64 + 128)) = true := by
  rw [ByteRange.holds_iff, toNat_ofNat (by omega)]
  unfold secondOfFour
  split
  · show 144 ≤ _ ∧ _ ≤ 191
    omega
  · split
    · show 128 ≤ _ ∧ _ ≤ 143
      omega
    · show 128 ≤ _ ∧ _ ≤ 191
      omega

/-- The bytes of a character are read as that character, whatever follows. -/
theorem readChar_utf8EncodeChar (c : Char) (more : List UInt8) :
    ∃ b bs, String.utf8EncodeChar c = b :: bs ∧ readChar b (bs ++ more) = (c, bs.length) := by
  have hvalid : c.val.toNat < 0xd800 ∨ 0xdfff < c.val.toNat ∧ c.val.toNat < 0x110000 := c.valid
  have hc : Char.ofNat c.val.toNat = c := Char.ofNat_toNat c
  unfold String.utf8EncodeChar
  dsimp only
  generalize c.val.toNat = v at hvalid hc
  split
  next h1 =>
    refine ⟨_, [], rfl, ?_⟩
    rw [readChar_of_matching (following?_one v (by omega)) (matching_none _) rfl]
    have hp : codePoint (UInt8.ofNat v) [] = v := by
      simp only [codePoint, List.isEmpty_nil, if_true, List.foldl_nil]
      exact toNat_ofNat (by omega)
    rw [hp, hc]
  next h1 =>
  split
  next h2 =>
    refine ⟨_, [_], rfl, ?_⟩
    have he : v / 64 % 32 + 192 = 0xc2 + (v / 64 - 2) := by omega
    rw [he, readChar_of_matching (following?_two (v / 64 - 2) (by omega))
      (matching_one more (holds_tail v)) rfl]
    have hp : codePoint (UInt8.ofNat (0xc2 + (v / 64 - 2))) [UInt8.ofNat (v % 64 + 128)] = v := by
      simp only [codePoint, List.isEmpty_cons, List.length_singleton, List.foldl_cons,
        List.foldl_nil, Bool.false_eq_true, if_false]
      rw [toNat_ofNat (by omega), toNat_ofNat (by omega)]
      show (0xc2 + (v / 64 - 2)) % 32 * 64 + (v % 64 + 128) % 64 = v
      omega
    rw [hp, hc]
  next h2 =>
  split
  next h3 =>
    refine ⟨_, [_, _], rfl, ?_⟩
    have he : v / 4096 % 16 + 224 = 0xe0 + v / 4096 := by omega
    rw [he, readChar_of_matching (following?_three (v / 4096) (by omega))
      (matching_two more (holds_secondOfThree (by omega) (by omega) h3) (holds_tail v)) rfl]
    have hp : codePoint (UInt8.ofNat (0xe0 + v / 4096))
        [UInt8.ofNat (v / 64 % 64 + 128), UInt8.ofNat (v % 64 + 128)] = v := by
      simp only [codePoint, List.isEmpty_cons, List.length_cons, List.length_nil, List.foldl_cons,
        List.foldl_nil, Bool.false_eq_true, if_false]
      rw [toNat_ofNat (by omega), toNat_ofNat (by omega), toNat_ofNat (by omega)]
      show ((0xe0 + v / 4096) % 16 * 64 + (v / 64 % 64 + 128) % 64) * 64 + (v % 64 + 128) % 64 = v
      omega
    rw [hp, hc]
  next h3 =>
    refine ⟨_, [_, _, _], rfl, ?_⟩
    have he : v / 262144 % 8 + 240 = 0xf0 + v / 262144 := by omega
    rw [he, readChar_of_matching (following?_four (v / 262144) (by omega))
      (matching_three more (holds_secondOfFour (by omega) (by omega)) (holds_tail (v / 64))
        (holds_tail v)) rfl]
    have hp : codePoint (UInt8.ofNat (0xf0 + v / 262144))
        [UInt8.ofNat (v / 4096 % 64 + 128), UInt8.ofNat (v / 64 % 64 + 128),
          UInt8.ofNat (v % 64 + 128)] = v := by
      simp only [codePoint, List.isEmpty_cons, List.length_cons, List.length_nil, List.foldl_cons,
        List.foldl_nil, Bool.false_eq_true, if_false]
      rw [toNat_ofNat (by omega), toNat_ofNat (by omega), toNat_ofNat (by omega),
        toNat_ofNat (by omega)]
      show (((0xf0 + v / 262144) % 8 * 64 + (v / 4096 % 64 + 128) % 64) * 64
        + (v / 64 % 64 + 128) % 64) * 64 + (v % 64 + 128) % 64 = v
      omega
    rw [hp, hc]

/-- Written text is read back. -/
theorem readUtf8_utf8 (cs : List Char) : readUtf8 (utf8 cs) = cs := by
  induction cs with
  | nil => simp [utf8, readUtf8]
  | cons c cs ih =>
    obtain ⟨b, bs, he, hr⟩ := readChar_utf8EncodeChar c (utf8 cs)
    have hu : utf8 (c :: cs) = b :: (bs ++ utf8 cs) := by
      rw [utf8, List.flatMap_cons, he]
      rfl
    rw [hu, readUtf8, hr, List.drop_left, ih]

end NetPack.Text
