import Mathlib.Tactic.Ring
import NetPack.Single

/-!
# The number nearest to an integer

Every finite number is a multiple of `2 ^ -149`, and `Single.units` says which one. The number that an integer is
read as is at least as near to it as every other finite number and, of two that are equally near, the one whose
pattern is even (`Single.isNearest_ofInt32`). So an integer that is the value of some number is read as it is.
-/

namespace NetPack

/-! ## Quotients -/

section Quotient

variable {num den : Nat}

/-- The two neighbours of a quotient are the only candidates. -/
theorem roundEven_cases (num den : Nat) :
    (roundEven num den = num / den ∧ 2 * (num % den) ≤ den ∧ (2 * (num % den) = den → num / den % 2 = 0)) ∨
    (roundEven num den = num / den + 1 ∧ den ≤ 2 * (num % den) ∧
      (2 * (num % den) = den → num / den % 2 = 1)) := by
  unfold roundEven
  by_cases h : den < 2 * (num % den) ∨ (den = 2 * (num % den) ∧ num / den % 2 = 1)
  · right
    refine ⟨if_pos h, ?_, ?_⟩ <;> omega
  · left
    refine ⟨if_neg h, ?_, ?_⟩ <;> omega

theorem roundEven_nearest (hden : 0 < den) (m : Nat) :
    ((roundEven num den * den : Nat) - num : Int).natAbs ≤ ((m * den : Nat) - num : Int).natAbs := by
  have hnum : num / den * den + num % den = num := Nat.div_add_mod' num den
  have hlt : num % den < den := Nat.mod_lt num hden
  have hm : m * den ≤ num / den * den ∨ (num / den + 1) * den ≤ m * den := by
    rcases Nat.lt_or_ge (num / den) m with hgt | hle
    · exact .inr (Nat.mul_le_mul_right den hgt)
    · exact .inl (Nat.mul_le_mul_right den hle)
  rw [Nat.succ_mul] at hm
  rcases roundEven_cases num den with ⟨hround, hhalf, -⟩ | ⟨hround, hhalf, -⟩
  · rw [hround]
    omega
  · rw [hround, Nat.succ_mul]
    omega

/-- A quotient that is half-way between two integers is rounded to an even one. -/
theorem roundEven_even (hden : 0 < den) {m : Nat} (hne : m ≠ roundEven num den)
    (htie : ((m * den : Nat) - num : Int).natAbs = ((roundEven num den * den : Nat) - num : Int).natAbs) :
    roundEven num den % 2 = 0 := by
  have hnum : num / den * den + num % den = num := Nat.div_add_mod' num den
  have hlt : num % den < den := Nat.mod_lt num hden
  have hm : (m + 1) * den ≤ num / den * den ∨ m = num / den ∨ m = num / den + 1 ∨
      (num / den + 1 + 1) * den ≤ m * den := by
    rcases Nat.lt_trichotomy m (num / den) with h | h | h
    · exact .inl (Nat.mul_le_mul_right den h)
    · exact .inr (.inl h)
    · rcases Nat.eq_or_lt_of_le h with h | h
      · exact .inr (.inr (.inl h.symm))
      · exact .inr (.inr (.inr (Nat.mul_le_mul_right den h)))
  rcases roundEven_cases num den with ⟨hround, hhalf, heven⟩ | ⟨hround, hhalf, hodd⟩
  · rw [hround] at hne htie ⊢
    rcases hm with h | h | h | h
    · rw [Nat.succ_mul] at h
      omega
    · exact absurd h hne
    · rw [h, Nat.succ_mul] at htie
      omega
    · rw [Nat.succ_mul, Nat.succ_mul] at h
      omega
  · rw [hround] at hne htie ⊢
    rw [Nat.succ_mul] at htie
    rcases hm with h | h | h | h
    · rw [Nat.succ_mul] at h
      omega
    · rw [h] at htie
      omega
    · exact absurd h hne
    · rw [Nat.succ_mul, Nat.succ_mul] at h
      omega

end Quotient

namespace Single

/-! ## Units -/

/-- The units of a magnitude. -/
def unitsOf (magnitude : Nat) : Nat :=
  let fraction := magnitude % 0x800000
  let exponent := magnitude / 0x800000
  if exponent = 0 then fraction else (fraction + 0x800000) * Nat.pow 2 (exponent - 1)

/-- The multiple of `2 ^ -149` that a finite number is. -/
def units (x : Single) : Int :=
  if x.isNegative then -(unitsOf x.magnitude : Int) else unitsOf x.magnitude

def IsFinite (x : Single) : Prop :=
  x.magnitude < infinity

/-- How far a number is from an integer, in the same units. -/
def distance (x : Single) (i : Int) : Nat :=
  (x.units - i * Nat.pow 2 149).natAbs

/-- No finite number is nearer to the integer, and if another one is equally near, the pattern is even. -/
structure IsNearest (x : Single) (i : Int) : Prop where
  finite : x.IsFinite
  nearest : ∀ y : Single, y.IsFinite → x.distance i ≤ y.distance i
  even : ∀ y : Single, y.IsFinite → y.units ≠ x.units → y.distance i = x.distance i →
    x.bits.toNat % 2 = 0

/-! ## Patterns of integers -/

section Pattern

variable {n : Nat}

/-- The integer, in units of its last place: 24 binary digits, rounded. -/
def significand (n : Nat) : Nat :=
  roundEven (n * 0x800000) (Nat.pow 2 n.log2)

theorem two_pow_pos (k : Nat) : 0 < Nat.pow 2 k :=
  Nat.pow_pos (by decide)

theorem significand_bounds (hn : 0 < n) : 0x800000 ≤ significand n ∧ significand n ≤ 0x1000000 := by
  have hlow : Nat.pow 2 n.log2 ≤ n := Nat.log2_self_le (by omega)
  have hhigh : n < Nat.pow 2 n.log2 * 2 := Nat.lt_log2_self
  have hpos := two_pow_pos n.log2
  have hquot : 0x800000 ≤ n * 0x800000 / Nat.pow 2 n.log2 := by
    rw [Nat.le_div_iff_mul_le hpos]
    omega
  have hquot' : n * 0x800000 / Nat.pow 2 n.log2 < 0x1000000 := by
    rw [Nat.div_lt_iff_lt_mul hpos]
    omega
  unfold significand
  rcases roundEven_cases (n * 0x800000) (Nat.pow 2 n.log2) with ⟨hround, -, -⟩ | ⟨hround, -, -⟩
  · omega
  · omega

theorem patternOfNat_eq (n : Nat) :
    patternOfNat n = (n.log2 + 127) * 0x800000 + (significand n - 0x800000) :=
  rfl

/-- A carry out of the fraction doubles the unit of the last place. -/
theorem unitsOf_patternOfNat (hn : 0 < n) :
    unitsOf (patternOfNat n) = significand n * (Nat.pow 2 n.log2 * Nat.pow 2 126) := by
  obtain ⟨hlow, hhigh⟩ := significand_bounds hn
  have hpow (j : Nat) : Nat.pow 2 (n.log2 + j) = Nat.pow 2 n.log2 * Nat.pow 2 j := Nat.pow_add 2 n.log2 j
  rw [patternOfNat_eq, unitsOf]
  rcases Nat.lt_or_ge (significand n) 0x1000000 with hlt | hge
  · have hfraction : ((n.log2 + 127) * 0x800000 + (significand n - 0x800000)) % 0x800000
        = significand n - 0x800000 := by omega
    have hexponent : ((n.log2 + 127) * 0x800000 + (significand n - 0x800000)) / 0x800000
        = n.log2 + 127 := by omega
    rw [hfraction, hexponent, if_neg (by omega), Nat.sub_add_cancel hlow]
    exact congrArg (significand n * ·) (hpow 126)
  · have hcarry : significand n = 0x1000000 := by omega
    have hfraction : ((n.log2 + 127) * 0x800000 + (significand n - 0x800000)) % 0x800000 = 0 := by omega
    have hexponent : ((n.log2 + 127) * 0x800000 + (significand n - 0x800000)) / 0x800000
        = n.log2 + 128 := by omega
    have hdouble : Nat.pow 2 127 = 2 * Nat.pow 2 126 := rfl
    rw [hfraction, hexponent, if_neg (by omega), hcarry]
    refine (congrArg ((0 + 0x800000) * ·) (hpow 127)).trans ?_
    rw [hdouble]
    ring

theorem even_patternOfNat (hn : 0 < n) : patternOfNat n % 2 = significand n % 2 := by
  have hlow := (significand_bounds hn).1
  rw [patternOfNat_eq]
  omega

theorem patternOfNat_lt (hn : 0 < n) (h : n ≤ 0x80000000) : patternOfNat n < infinity := by
  have hhigh := (significand_bounds hn).2
  have hlog : n.log2 < 32 := (Nat.log2_lt (by omega)).mpr (by omega)
  rw [patternOfNat_eq, infinity]
  omega

/-! ## Candidates -/

/-- A number is a multiple of the unit of the last place, or it is less than the least one with this unit. -/
theorem unitsOf_cases (k magnitude : Nat) :
    (∃ c, unitsOf magnitude = c * (Nat.pow 2 k * Nat.pow 2 126)) ∨
      unitsOf magnitude < 0x800000 * (Nat.pow 2 k * Nat.pow 2 126) := by
  have hpow (a b : Nat) : Nat.pow 2 (a + b) = Nat.pow 2 a * Nat.pow 2 b := Nat.pow_add 2 a b
  have hfraction : magnitude % 0x800000 < 0x800000 := Nat.mod_lt _ (by decide)
  have hunit := Nat.mul_pos (two_pow_pos k) (two_pow_pos 126)
  unfold unitsOf
  by_cases hzero : magnitude / 0x800000 = 0
  · right
    rw [if_pos hzero]
    omega
  · rw [if_neg hzero]
    rcases Nat.lt_or_ge (magnitude / 0x800000) (k + 127) with hlt | hge
    · right
      have hle : Nat.pow 2 (magnitude / 0x800000 - 1) ≤ Nat.pow 2 (k + 125) :=
        Nat.pow_le_pow_right (by decide) (by omega)
      have hdouble : Nat.pow 2 k * Nat.pow 2 126 = 2 * Nat.pow 2 (k + 125) := by
        rw [hpow, show Nat.pow 2 126 = 2 * Nat.pow 2 125 from rfl]
        ring
      have hpos := two_pow_pos (k + 125)
      calc (magnitude % 0x800000 + 0x800000) * Nat.pow 2 (magnitude / 0x800000 - 1)
          ≤ (magnitude % 0x800000 + 0x800000) * Nat.pow 2 (k + 125) := Nat.mul_le_mul_left _ hle
        _ < 0x1000000 * Nat.pow 2 (k + 125) := Nat.mul_lt_mul_of_pos_right (by omega) hpos
        _ = 0x800000 * (Nat.pow 2 k * Nat.pow 2 126) := by rw [hdouble]; ring
    · left
      obtain ⟨j, hj⟩ := Nat.exists_eq_add_of_le hge
      refine ⟨(magnitude % 0x800000 + 0x800000) * Nat.pow 2 j, ?_⟩
      rw [hj, show k + 127 + j - 1 = k + 126 + j by omega, hpow, hpow]
      ring

theorem natAbs_scaled (a b s : Nat) :
    ((a * s : Nat) - (b * s : Nat) : Int).natAbs = ((a : Int) - b).natAbs * s := by
  rw [Nat.cast_mul, Nat.cast_mul, ← Int.sub_mul, Int.natAbs_mul, Int.natAbs_natCast]

/-- No multiple of the least unit that is the magnitude of a number is nearer to the integer than its
pattern. -/
theorem unitsOf_patternOfNat_nearest (hn : 0 < n) {z : Int} {magnitude : Nat}
    (hz : z.natAbs = unitsOf magnitude) :
    ((unitsOf (patternOfNat n) : Int) - (n * Nat.pow 2 149 : Nat)).natAbs
      ≤ (z - (n * Nat.pow 2 149 : Nat)).natAbs ∧
    (z ≠ unitsOf (patternOfNat n) → (z - (n * Nat.pow 2 149 : Nat)).natAbs
      = ((unitsOf (patternOfNat n) : Int) - (n * Nat.pow 2 149 : Nat)).natAbs →
      patternOfNat n % 2 = 0) := by
  have hpos := two_pow_pos n.log2
  have hpos' := two_pow_pos 126
  have hlow : Nat.pow 2 n.log2 ≤ n := Nat.log2_self_le (by omega)
  have hscale : n * Nat.pow 2 149 = n * 0x800000 * Nat.pow 2 126 := by
    rw [show Nat.pow 2 149 = 0x800000 * Nat.pow 2 126 from rfl]
    ring
  rw [even_patternOfNat hn, unitsOf_patternOfNat hn, ← Nat.mul_assoc, hscale, natAbs_scaled]
  have hbelow : ((significand n * Nat.pow 2 n.log2 : Nat) - (n * 0x800000 : Nat) : Int).natAbs
      ≤ n * 0x800000 - 0x800000 * Nat.pow 2 n.log2 := by
    refine Nat.le_trans (roundEven_nearest hpos 0x800000) ?_
    omega
  rcases lt_or_ge z (0x800000 * Nat.pow 2 n.log2 * Nat.pow 2 126 : Nat) with hlt | hge
  · -- The least number of this unit is nearer.
    have hstrict : (n * 0x800000 - 0x800000 * Nat.pow 2 n.log2) * Nat.pow 2 126
        < (z - (n * 0x800000 * Nat.pow 2 126 : Nat)).natAbs := by
      rw [Nat.sub_mul]
      have hle : 0x800000 * Nat.pow 2 n.log2 * Nat.pow 2 126 ≤ n * 0x800000 * Nat.pow 2 126 :=
        Nat.mul_le_mul_right _ (by omega)
      omega
    have hnear := Nat.lt_of_le_of_lt (Nat.mul_le_mul_right (Nat.pow 2 126) hbelow) hstrict
    exact ⟨Nat.le_of_lt hnear, fun _ htie => absurd htie (Nat.ne_of_gt hnear)⟩
  · obtain ⟨c, hc⟩ : ∃ c, z = (c * Nat.pow 2 n.log2 * Nat.pow 2 126 : Nat) := by
      rcases unitsOf_cases n.log2 magnitude with ⟨c, hc⟩ | hsmall
      · refine ⟨c, ?_⟩
        rw [Nat.mul_assoc, ← hc, ← hz]
        omega
      · rw [← Nat.mul_assoc] at hsmall
        omega
    rw [hc, natAbs_scaled]
    refine ⟨Nat.mul_le_mul_right _ (roundEven_nearest hpos c), fun hne htie => ?_⟩
    refine roundEven_even hpos (m := c) ?_ (Nat.eq_of_mul_eq_mul_right hpos' htie)
    rintro rfl
    exact hne rfl

end Pattern

/-! ## Integers -/

theorem natAbs_units (x : Single) : x.units.natAbs = unitsOf x.magnitude := by
  unfold units
  cases x.isNegative <;> simp

theorem even_magnitude (x : Single) : x.bits.toNat % 2 = x.magnitude % 2 := by
  unfold magnitude
  omega

theorem isNearest_zero : zero.IsNearest 0 where
  finite := Nat.zero_lt_of_lt (by decide : 0 < infinity)
  nearest _ _ := Nat.zero_le _
  even _ _ _ _ := rfl

/-- The distances from a negative integer are those of the opposite numbers from the opposite integer. -/
theorem distance_of_sign {sign : Int} (hsign : sign.natAbs = 1) (y : Single) (n : Nat) :
    y.distance (sign * n) = (sign * y.units - (n * Nat.pow 2 149 : Nat)).natAbs := by
  have hsquare : sign * sign = 1 := by
    rw [← Int.natAbs_mul_self, hsign]
    rfl
  have hturn : sign * (y.units - sign * n * (Nat.pow 2 149 : Nat))
      = sign * y.units - (n * Nat.pow 2 149 : Nat) := by
    rw [Nat.cast_mul]
    generalize ((Nat.pow 2 149 : Nat) : Int) = u
    rw [Int.mul_sub, ← Int.mul_assoc, ← Int.mul_assoc, hsquare, Int.one_mul]
  rw [← hturn, Int.natAbs_mul, hsign, Nat.one_mul, distance]

theorem isNearest_of_units {x : Single} {n : Nat} (sign : Int) (hn : 0 < n) (hle : n ≤ 0x80000000)
    (hsign : sign.natAbs = 1) (hx : x.magnitude = patternOfNat n)
    (hunits : sign * x.units = unitsOf (patternOfNat n)) : x.IsNearest (sign * n) := by
  have hturned (y : Single) : (sign * y.units).natAbs = unitsOf y.magnitude := by
    rw [Int.natAbs_mul, hsign, Nat.one_mul, natAbs_units]
  have hfinite : x.magnitude < infinity := by
    rw [hx]
    exact patternOfNat_lt hn hle
  refine ⟨hfinite, fun y _ => ?_, fun y _ hne htie => ?_⟩
  · rw [distance_of_sign hsign, distance_of_sign hsign, hunits]
    exact (unitsOf_patternOfNat_nearest hn (hturned y)).1
  · rw [distance_of_sign hsign, distance_of_sign hsign, hunits] at htie
    rw [even_magnitude, hx]
    refine (unitsOf_patternOfNat_nearest hn (hturned y)).2 (fun heq => hne ?_) htie
    have hsign_ne : sign ≠ 0 := by
      rintro rfl
      cases hsign
    exact Int.eq_of_mul_eq_mul_left hsign_ne (heq.trans hunits.symm)

section

variable {p : Nat} (hp : p < 0x80000000)
include hp

theorem positive_pattern : (⟨UInt32.ofNat p⟩ : Single).magnitude = p ∧
    (⟨UInt32.ofNat p⟩ : Single).units = unitsOf p := by
  have hbits : (UInt32.ofNat p).toNat = p := by
    rw [UInt32.toNat_ofNat']
    omega
  have hmagnitude : (⟨UInt32.ofNat p⟩ : Single).magnitude = p := by
    rw [magnitude, hbits]
    omega
  have hsign : (⟨UInt32.ofNat p⟩ : Single).isNegative = false := by
    rw [isNegative, hbits]
    exact decide_eq_false (by omega)
  refine ⟨hmagnitude, ?_⟩
  rw [units, hsign, hmagnitude, if_neg Bool.false_ne_true]

theorem negative_pattern : (⟨UInt32.ofNat (0x80000000 + p)⟩ : Single).magnitude = p ∧
    (⟨UInt32.ofNat (0x80000000 + p)⟩ : Single).units = -(unitsOf p : Int) := by
  have hbits : (UInt32.ofNat (0x80000000 + p)).toNat = 0x80000000 + p := by
    rw [UInt32.toNat_ofNat']
    omega
  have hmagnitude : (⟨UInt32.ofNat (0x80000000 + p)⟩ : Single).magnitude = p := by
    rw [magnitude, hbits]
    omega
  have hsign : (⟨UInt32.ofNat (0x80000000 + p)⟩ : Single).isNegative = true := by
    rw [isNegative, hbits]
    exact decide_eq_true (by omega)
  refine ⟨hmagnitude, ?_⟩
  rw [units, hsign, hmagnitude, if_pos rfl]

end

theorem isNearest_ofInt32 (i : Int32) : (ofInt32 i).IsNearest i.toInt := by
  have hlow := i.le_toInt
  have hhigh := i.toInt_lt
  unfold ofInt32
  by_cases hzero : i.toInt.natAbs = 0
  · have hi : i.toInt = 0 := by omega
    rw [if_pos hzero, hi]
    exact isNearest_zero
  · have hn : 0 < i.toInt.natAbs := by omega
    have hle : i.toInt.natAbs ≤ 0x80000000 := by omega
    have hp : patternOfNat i.toInt.natAbs < 0x80000000 :=
      Nat.lt_trans (patternOfNat_lt hn hle) (by decide)
    rw [if_neg hzero]
    by_cases hneg : i.toInt < 0
    · obtain ⟨hmagnitude, hunits⟩ := negative_pattern hp
      have hnearest := isNearest_of_units (-1) hn hle rfl hmagnitude (by rw [hunits]; omega)
      have hi : -1 * (i.toInt.natAbs : Int) = i.toInt := by omega
      rw [if_pos hneg]
      rwa [hi] at hnearest
    · obtain ⟨hmagnitude, hunits⟩ := positive_pattern hp
      have hnearest := isNearest_of_units 1 hn hle rfl hmagnitude (by rw [hunits, Int.one_mul])
      have hi : 1 * (i.toInt.natAbs : Int) = i.toInt := by omega
      rw [if_neg hneg]
      rwa [hi] at hnearest

end Single

end NetPack
