import NetPack.Narrow

/-!
# Integers in range

An integer that is in the range of the narrow ones is narrowed to its own value, and no other integer is
narrowed.
-/

namespace NetPack

variable {v : Int64}

/-- An unsigned 32-bit integer has this value. -/
def FitsUnsigned (v : Int64) : Prop :=
  0 ≤ v.toInt ∧ v.toInt < 0x100000000

/-- A signed 32-bit integer has this value. -/
def FitsSigned (v : Int64) : Prop :=
  -0x80000000 ≤ v.toInt ∧ v.toInt < 0x80000000

instance (v : Int64) : Decidable (FitsUnsigned v) :=
  inferInstanceAs (Decidable (_ ∧ _))

instance (v : Int64) : Decidable (FitsSigned v) :=
  inferInstanceAs (Decidable (_ ∧ _))

theorem fitsUnsigned_zero : FitsUnsigned 0 := by
  decide

theorem fitsUnsigned_one : FitsUnsigned 1 := by
  decide

/-- The unsigned integer of this value, if it fits. -/
def unsignedOf (v : Int64) : UInt32 :=
  UInt32.ofNat v.toInt.toNat

theorem toNat_unsignedOf (h : FitsUnsigned v) : ((unsignedOf v).toNat : Int) = v.toInt := by
  obtain ⟨hlow, hhigh⟩ := h
  have hmod : v.toInt.toNat % 4294967296 = v.toInt.toNat := Nat.mod_eq_of_lt (by omega)
  rw [unsignedOf, UInt32.toNat_ofNat', hmod]
  exact Int.toNat_of_nonneg hlow

theorem unsigned?_of_fits (h : FitsUnsigned v) : unsigned? v = some (unsignedOf v) :=
  if_pos h

theorem unsigned?_of_not_fits (h : ¬FitsUnsigned v) : unsigned? v = none :=
  if_neg h

/-- The signed integer of this value, if it fits. -/
def signedOf (v : Int64) : Int32 :=
  Int32.ofInt v.toInt

theorem toInt_signedOf (h : FitsSigned v) : (signedOf v).toInt = v.toInt :=
  Int32.toInt_ofInt_of_le h.1 h.2

theorem signed?_of_fits (h : FitsSigned v) : signed? v = some (signedOf v) :=
  if_pos h

theorem signed?_of_not_fits (h : ¬FitsSigned v) : signed? v = none :=
  if_neg h

end NetPack
