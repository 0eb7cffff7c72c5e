import Mathlib.Algebra.BigOperators.Group.List.Basic
import Mathlib.Data.List.TakeWhile
import NetPack.Proofs.Onnx.Consistent

/-!
# Counting elements without overflow

The number of elements of a shape is multiplied up from the left, and the products of all leading dimensions have
to be numbers of 64 bits (`elementCount?_eq_some_iff`). They grow up to the first dimension that is zero and are
zero behind it, so what decides is the product of the dimensions in front of it (`product_take_lt_iff`). A shape
and some elements make a constant exactly if that product is such a number and the true number of elements is
theirs (`Constant.of?_counts`); a product that has wrapped is never compared with anything.
-/

namespace NetPack

/-! ## Products of leading dimensions -/

/-- The product of the dimensions. -/
def Schema.product (shape : List UInt32) : Nat :=
  shape.foldr (fun d n => d.toNat * n) 1

open Schema (product)

/-- The dimensions in front of the first one that is zero. -/
def beforeZero (shape : List UInt32) : List UInt32 :=
  shape.takeWhile (· ≠ 0)

/-- The product of the dimensions in words of 64 bits, where it wraps around. -/
def wordProduct (shape : List UInt32) : UInt64 :=
  shape.foldl (fun n d => n * d.toUInt64) 1

section Product

variable {shape : List UInt32}

theorem product_nil : product [] = 1 := rfl

theorem product_cons (d : UInt32) (shape : List UInt32) : product (d :: shape) = d.toNat * product shape := rfl

theorem product_eq_prod (shape : List UInt32) : product shape = (shape.map UInt32.toNat).prod := by
  induction shape with
  | nil => rfl
  | cons d shape ih => rw [product_cons, ih, List.map_cons, List.prod_cons]

theorem product_perm {shape' : List UInt32} (h : shape.Perm shape') : product shape = product shape' := by
  rw [product_eq_prod, product_eq_prod]
  exact (h.map UInt32.toNat).prod_eq

theorem beforeZero_cons {d : UInt32} (h : d ≠ 0) : beforeZero (d :: shape) = d :: beforeZero shape :=
  List.takeWhile_cons_of_pos (decide_eq_true h)

theorem beforeZero_of_not_mem (h : 0 ∉ shape) : beforeZero shape = shape :=
  List.takeWhile_eq_self_iff.mpr fun _ hd => decide_eq_true fun heq => h (heq ▸ hd)

theorem product_beforeZero_pos (shape : List UInt32) : 0 < product (beforeZero shape) := by
  induction shape with
  | nil => exact Nat.one_pos
  | cons d shape ih =>
    by_cases hd : d = 0
    · subst hd
      exact Nat.one_pos
    · have hpos : 0 < d.toNat := Nat.pos_of_ne_zero fun h => hd (UInt32.toNat_inj.mp h)
      rw [beforeZero_cons hd, product_cons]
      exact Nat.mul_pos hpos ih

/-- No product of leading dimensions exceeds that of the dimensions in front of the first zero. -/
theorem product_take_le (shape : List UInt32) (k : Nat) :
    product (shape.take k) ≤ product (beforeZero shape) := by
  induction shape generalizing k with
  | nil => rw [List.take_nil]; exact Nat.le_refl _
  | cons d shape ih =>
    cases k with
    | zero => exact product_beforeZero_pos _
    | succ k =>
      rw [List.take_succ_cons, product_cons]
      by_cases hd : d = 0
      · subst hd
        rw [show (0 : UInt32).toNat = 0 from rfl, Nat.zero_mul]
        exact Nat.zero_le _
      · rw [beforeZero_cons hd, product_cons]
        exact Nat.mul_le_mul_left _ (ih k)

theorem product_take_lt_iff {bound : Nat} :
    (∀ k, product (shape.take k) < bound) ↔ product (beforeZero shape) < bound := by
  constructor
  · intro h
    have htake := List.prefix_iff_eq_take.mp (List.takeWhile_prefix (l := shape) (· ≠ 0))
    rw [beforeZero, htake]
    exact h _
  · exact fun h k => Nat.lt_of_le_of_lt (product_take_le shape k) h

theorem toNat_wordProduct (shape : List UInt32) : (wordProduct shape).toNat = product shape % countLimit := by
  -- The words multiplied so far are one of the factors.
  suffices hfold : ∀ n : UInt64, (shape.foldl (fun n d => n * d.toUInt64) n).toNat
      = n.toNat * product shape % countLimit by
    have hone := hfold 1
    rwa [UInt64.toNat_one, Nat.one_mul] at hone
  intro n
  induction shape generalizing n with
  | nil =>
    rw [product_nil, Nat.mul_one]
    exact (Nat.mod_eq_of_lt n.toNat_lt).symm
  | cons d shape ih =>
    rw [List.foldl_cons, ih, UInt64.toNat_mul, UInt32.toNat_toUInt64, product_cons, ← Nat.mul_assoc]
    exact Nat.mod_mul_mod _ _ _

end Product

/-! ## The count -/

/-- The induction is over the shape; `count` are the elements that its leading dimensions ask for. -/
theorem foldlM_count_eq_some_iff {shape : List UInt32} {count total : Nat} (hcount : count < countLimit) :
    shape.foldlM (fun n d => if n * d.toNat < countLimit then some (n * d.toNat) else none) count = some total ↔
      total = count * product shape ∧ ∀ k, count * product (shape.take k) < countLimit := by
  induction shape generalizing count with
  | nil =>
    have hone : count * product [] = count := Nat.mul_one count
    simp [hone, hcount, eq_comm]
  | cons d shape ih =>
    have hall : (∀ k, count * product ((d :: shape).take k) < countLimit) ↔
        ∀ k, count * d.toNat * product (shape.take k) < countLimit := by
      constructor
      · intro h k
        rw [Nat.mul_assoc]
        exact h (k + 1)
      · intro h k
        cases k with
        | zero => rwa [List.take_zero, product_nil, Nat.mul_one]
        | succ k =>
          rw [List.take_succ_cons, product_cons, ← Nat.mul_assoc]
          exact h k
    rw [List.foldlM_cons, hall, product_cons, ← Nat.mul_assoc]
    by_cases hnext : count * d.toNat < countLimit
    · rw [if_pos hnext]
      exact ih hnext
    · rw [if_neg hnext]
      refine iff_of_false (fun h => nomatch h) fun h => hnext ?_
      have hzero := h.2 0
      rwa [List.take_zero, product_nil, Nat.mul_one] at hzero

theorem elementCount?_eq_some_iff {shape : List UInt32} {n : Nat} :
    elementCount? shape = some n ↔ n = product shape ∧ ∀ k, product (shape.take k) < countLimit := by
  have hfold := @foldlM_count_eq_some_iff shape 1 n (by decide)
  simp only [Nat.one_mul] at hfold
  exact hfold

/-- A count is a product of words that has not wrapped. -/
theorem toNat_wordProduct_of_count {shape : List UInt32} {n : Nat} (h : elementCount? shape = some n) :
    (wordProduct shape).toNat = n := by
  obtain ⟨rfl, hlt⟩ := elementCount?_eq_some_iff.mp h
  have hall := hlt shape.length
  rw [List.take_length] at hall
  rw [toNat_wordProduct, Nat.mod_eq_of_lt hall]

/-! ## Constants -/

namespace Constant

variable {name : String} {shape : List UInt32} {es : Elements}

theorem of?_eq_ok_iff {c : Constant} : of? name shape es = .ok c ↔
    elementCount? shape = some es.length ∧ c.name = name ∧ c.shape = shape ∧ c.elements = es := by
  constructor
  · intro h
    cases hcount : elementCount? shape with
    | none => cases h.symm.trans (of?_of_tooMany hcount)
    | some n =>
      by_cases hn : n = es.length
      · subst hn
        cases h.symm.trans (of?_of_eq hcount)
        exact ⟨rfl, rfl, rfl, rfl⟩
      · cases h.symm.trans (of?_of_ne hcount hn)
  · rintro ⟨hcount, rfl, rfl, rfl⟩
    exact of?_of_eq hcount

theorem exists_of?_iff : (∃ c, of? name shape es = .ok c) ↔
    product shape = es.length ∧ product (beforeZero shape) < countLimit := by
  have hcount : (∃ c, of? name shape es = .ok c) ↔ elementCount? shape = some es.length :=
    ⟨fun ⟨_, hc⟩ => (of?_eq_ok_iff.mp hc).1, fun h => ⟨_, of?_of_eq h⟩⟩
  rw [hcount, elementCount?_eq_some_iff, product_take_lt_iff, eq_comm]

theorem isSome_scalar?_iff (c : Constant) : c.scalar?.isSome ↔ c.shape = [] := by
  constructor
  · intro h
    unfold scalar? at h
    split at h
    · exact List.isEmpty_iff.mp ‹_›
    · cases h
  · intro h
    obtain ⟨s, -, hs⟩ := c.scalar?_of_shape h
    rw [hs]
    rfl

/-- A shape and some elements make a constant exactly if the shape asks for as many elements and the product of its
dimensions in front of the first zero is a number of 64 bits. Every count on the way is the true product, which has
not wrapped. Without a zero the order of the dimensions does not matter. -/
theorem of?_counts (name : String) (shape : List UInt32) (es : Elements) :
    ((∃ c, of? name shape es = .ok c) ↔
      product shape = es.length ∧ product (beforeZero shape) < countLimit) ∧
    (∀ k n, elementCount? (shape.take k) = some n →
      n = product (shape.take k) ∧ n = (wordProduct (shape.take k)).toNat) ∧
    (∀ c, of? name shape es = .ok c →
      c.name = name ∧ c.shape = shape ∧ c.elements = es ∧ (c.scalar?.isSome ↔ shape = [])) ∧
    (0 ∉ shape → ∀ shape', shape.Perm shape' →
      ((∃ c, of? name shape es = .ok c) ↔ ∃ c, of? name shape' es = .ok c)) := by
  refine ⟨exists_of?_iff, ?_, ?_, ?_⟩
  · intro k n h
    exact ⟨(elementCount?_eq_some_iff.mp h).1, (toNat_wordProduct_of_count h).symm⟩
  · intro c hc
    obtain ⟨-, hname, rfl, helements⟩ := of?_eq_ok_iff.mp hc
    exact ⟨hname, rfl, helements, c.isSome_scalar?_iff⟩
  · intro hzero shape' hperm
    have hzero' : 0 ∉ shape' := fun h => hzero (hperm.mem_iff.mpr h)
    rw [exists_of?_iff, exists_of?_iff, beforeZero_of_not_mem hzero, beforeZero_of_not_mem hzero',
      product_perm hperm]

/-- With a zero the order matters: products are zero behind it, but not in front of it. -/
example : elementCount? [0, 4294967295, 4294967295, 4294967295] = some 0 ∧
    elementCount? [4294967295, 4294967295, 4294967295, 0] = none := by
  decide

end Constant

end NetPack
