import NetPack.Proofs.Bytes.Number

/-!
# Rows of numbers

A byte string that fills whole numbers of a width splits into exactly these numbers: what numbers are written
as splits into them again (`split_encode`), and the number at a position is what the bytes at that position
stand for (`getElem?_split`).
-/

namespace NetPack.LittleEndian

variable {width : Nat}

theorem split_nil (width : Nat) : split width [] = [] := by
  rw [split]

/-- The first bytes make a number, and the others are split. -/
theorem split_of_ne_nil (hwidth : 0 < width) {bs : List UInt8} (h : bs ≠ []) :
    split width bs = decode (bs.take width) :: split width (bs.drop width) := by
  cases bs with
  | nil => exact absurd rfl h
  | cons b bs =>
    obtain ⟨w, rfl⟩ := Nat.exists_eq_add_of_lt hwidth
    rw [split]
    simp

theorem split_append (hwidth : 0 < width) {bs : List UInt8} (h : bs.length = width)
    (rest : List UInt8) : split width (bs ++ rest) = decode bs :: split width rest := by
  have hne : bs ++ rest ≠ [] := by
    intro hnil
    have hbs := (List.append_eq_nil_iff.mp hnil).1
    rw [hbs, List.length_nil] at h
    omega
  rw [split_of_ne_nil hwidth hne, List.take_left' h, List.drop_left' h]

/-- Numbers that fit the width are found again. -/
theorem split_encode (hwidth : 0 < width) {ns : List Nat} (h : ∀ n ∈ ns, n < Nat.pow 256 width) :
    split width (ns.flatMap (encode width)) = ns := by
  induction ns with
  | nil => exact split_nil width
  | cons n ns ih =>
    rw [List.flatMap_cons, split_append hwidth (length_encode width n),
      decode_encode (h n List.mem_cons_self), ih fun m hm => h m (List.mem_cons_of_mem _ hm)]

/-- The induction is over the numbers that the bytes fill. -/
theorem getElem?_split (hwidth : 0 < width) {count : Nat} {bs : List UInt8}
    (h : bs.length = count * width) (i : Nat) : (split width bs)[i]? =
      if i < count then some (decode ((bs.drop (i * width)).take width)) else none := by
  induction count generalizing bs i with
  | zero =>
    rw [Nat.zero_mul, List.length_eq_zero_iff] at h
    subst h
    rw [split_nil, if_neg (Nat.not_lt_zero i), List.getElem?_nil]
  | succ count ih =>
    have hne : bs ≠ [] := by
      rintro rfl
      rw [Nat.succ_mul, List.length_nil] at h
      omega
    have hrest : (bs.drop width).length = count * width := by
      rw [List.length_drop, h, Nat.succ_mul, Nat.add_sub_cancel]
    rw [split_of_ne_nil hwidth hne]
    cases i with
    | zero => simp
    | succ i =>
      rw [List.getElem?_cons_succ, ih hrest, List.drop_drop, Nat.succ_mul, Nat.add_comm width]
      simp only [Nat.add_lt_add_iff_right]

end NetPack.LittleEndian
