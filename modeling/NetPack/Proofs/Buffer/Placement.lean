import NetPack.Proofs.Buffer.TableWriter
import NetPack.Text.Utf8

/-!
# What stands where in a buffer

The format says which bytes stand at which position: a number is written with its lowest byte first, a
reference holds the distance to what it leads to, a vtable holds the place of each slot in the tables that
have it, and a text or a vector has its length in front. `TableAt`, `TextAt`, `WordsAt` and `ReferencesAt` say
so in terms of bytes alone. The lookups of a reader give what stands there, whatever the positions are: the
place of a slot (`TableAt.slot?_eq`), the target of a reference (`Refers.follow_eq`), a text (`TextAt.text_eq`),
a vector of words (`WordsAt.words_eq`) and one of references (`ReferencesAt.follow_elements`). The other way
round, the bytes of the numbers that are read stand where they are read (`holdsAt_numbers`).
-/

namespace NetPack.Buffer

open LittleEndian (encode)
open Writer (distance vtableBytes)

namespace Image

/-! ## Bytes -/

/-- The bytes stand in the image from a position on. -/
def HoldsAt (b : Image) (p : Nat) (bs : List UInt8) : Prop :=
  ∃ front back, b.toList = front ++ (bs ++ back) ∧ front.length = p

theorem holdsAt_iff_prefix {b : Image} {p : Nat} {bs : List UInt8} :
    b.HoldsAt p bs ↔ p ≤ b.toList.length ∧ bs <+: b.toList.drop p := by
  constructor
  · rintro ⟨front, back, hb, rfl⟩
    rw [hb, List.drop_left, List.length_append]
    exact ⟨Nat.le_add_right _ _, back, rfl⟩
  · rintro ⟨hp, back, hb⟩
    refine ⟨b.toList.take p, back, ?_, List.length_take_of_le hp⟩
    rw [hb, List.take_append_drop]

instance (b : Image) (p : Nat) (bs : List UInt8) : Decidable (b.HoldsAt p bs) :=
  decidable_of_iff _ holdsAt_iff_prefix.symm

section HoldsAt

variable {b : Image} {p : Nat} {bs : List UInt8}

theorem HoldsAt.le_size (h : b.HoldsAt p bs) : p + bs.length ≤ b.size := by
  obtain ⟨front, back, hb, rfl⟩ := h
  rw [← Array.length_toList, hb, List.length_append, List.length_append]
  omega

/-- The same place, by its distance from the end. -/
theorem HoldsAt.holds (h : b.HoldsAt p bs) : Holds b.toList (b.size - p) bs := by
  obtain ⟨front, back, hb, rfl⟩ := h
  have hlength := congrArg List.length hb
  rw [Array.length_toList, List.length_append] at hlength
  exact ⟨front, back, hb, by omega⟩

theorem HoldsAt.add_eq (h : b.HoldsAt p bs) : p + (b.size - p) = b.toList.length := by
  have hle := h.le_size
  rw [Array.length_toList]
  omega

/-- A number is read where its bytes stand. -/
theorem HoldsAt.numberAt {width n : Nat} (h : b.HoldsAt p (encode width n)) (hn : n < Nat.pow 256 width) :
    b.numberAt width p = n :=
  h.holds.numberAt hn h.add_eq

theorem HoldsAt.byteAt {v : UInt8} (h : b.HoldsAt p [v]) : b.byteAt p = v :=
  h.holds.byteAt (List.getElem?_cons_zero ..) h.add_eq

/-- The bytes of the number that is read stand there. -/
theorem holdsAt_numberAt {width : Nat} (h : p + width ≤ b.size) :
    b.HoldsAt p (encode width (b.numberAt width p)) := by
  rw [← Array.length_toList] at h
  have hlength : ((b.toList.drop p).take width).length = width := by
    rw [List.length_take, List.length_drop]
    omega
  refine ⟨b.toList.take p, (b.toList.drop p).drop width, ?_, List.length_take_of_le (by omega)⟩
  have hnumber : b.numberAt width p = LittleEndian.decode ((b.toList.drop p).take width) :=
    numberAt_toArray h
  have hbytes := LittleEndian.encode_decode ((b.toList.drop p).take width)
  rw [hlength] at hbytes
  rw [hnumber, hbytes, List.take_append_drop, List.take_append_drop]

theorem holdsAt_byteAt (h : p < b.size) : b.HoldsAt p [b.byteAt p] := by
  have hone : b.HoldsAt p (encode 1 (b.numberAt 1 p)) := holdsAt_numberAt h
  rwa [numberAt, numberAt, Nat.mul_zero, Nat.add_zero, encode, encode, UInt8.ofNat_toNat] at hone

theorem HoldsAt.append {cs : List UInt8} (h : b.HoldsAt p bs) (h' : b.HoldsAt (p + bs.length) cs) :
    b.HoldsAt p (bs ++ cs) := by
  obtain ⟨front, back, hb, rfl⟩ := h
  obtain ⟨front', back', hb', hlength⟩ := h'
  rw [hb, ← List.append_assoc] at hb'
  obtain ⟨-, rfl⟩ := List.append_inj hb' (by rw [List.length_append, hlength])
  exact ⟨front, back', by rw [hb, List.append_assoc bs], rfl⟩

/-- Numbers of a width that are read one behind the other stand there. -/
theorem holdsAt_numbers {w k : Nat} (h : p + w * k ≤ b.size) :
    b.HoldsAt p ((List.range k).flatMap fun i => encode w (b.numberAt w (p + w * i))) := by
  induction k with
  | zero =>
    refine ⟨b.toList.take p, b.toList.drop p, (List.take_append_drop ..).symm, ?_⟩
    exact List.length_take_of_le (by rwa [Array.length_toList])
  | succ k ih =>
    rw [Nat.mul_succ] at h
    have hlength : ((List.range k).flatMap fun i => encode w (b.numberAt w (p + w * i))).length = w * k := by
      simp [List.length_flatMap, LittleEndian.length_encode, List.map_const', Nat.mul_comm]
    rw [List.range_succ, List.flatMap_append, List.flatMap_singleton]
    refine (ih (by omega)).append ?_
    rw [hlength]
    exact holdsAt_numberAt (by omega)

theorem holdsAt_bytes {k : Nat} (h : p + k ≤ b.size) :
    b.HoldsAt p ((List.range k).map fun i => b.byteAt (p + i)) := by
  have hnumbers : b.HoldsAt p ((List.range k).flatMap fun i => encode 1 (b.numberAt 1 (p + 1 * i))) :=
    holdsAt_numbers (by rwa [Nat.one_mul])
  simp only [numberAt, encode, Nat.one_mul, Nat.mul_zero, Nat.add_zero, UInt8.ofNat_toNat] at hnumbers
  rwa [List.map_eq_flatMap]

end HoldsAt

/-! ## References, texts and vectors -/

/-- A reference at a position leads forward to another. -/
structure Refers (b : Image) (i q : Nat) : Prop where
  forward : i < q
  near : q - i < 0x100000000
  holds : b.HoldsAt i (encode 4 (q - i))

/-- A text stands at a position: its length, its bytes, and a zero. -/
structure TextAt (b : Image) (q : Nat) (s : String) : Prop where
  aligned : q % 4 = 0
  short : (Text.utf8 s.toList).length < 0x100000000
  holds : b.HoldsAt q (encode 4 (Text.utf8 s.toList).length ++ (Text.utf8 s.toList ++ [0]))

/-- A vector of words stands at a position. -/
structure WordsAt (b : Image) (q : Nat) (ws : List UInt32) : Prop where
  aligned : q % 4 = 0
  short : ws.length < 0x100000000
  holds : b.HoldsAt q (encode 4 ws.length ++ ws.flatMap fun w => encode 4 w.toNat)

/-- A vector of references stands at a position, and they lead to others. -/
structure ReferencesAt (b : Image) (q : Nat) (targets : List Nat) : Prop where
  aligned : q % 4 = 0
  short : targets.length < 0x100000000
  length : b.HoldsAt q (encode 4 targets.length)
  refers : ∀ k (h : k < targets.length), b.Refers (q + 4 + 4 * k) targets[k]

instance (b : Image) (i q : Nat) : Decidable (b.Refers i q) :=
  decidable_of_iff (_ ∧ _ ∧ _) ⟨fun h => ⟨h.1, h.2.1, h.2.2⟩, fun h => ⟨h.forward, h.near, h.holds⟩⟩

instance (b : Image) (q : Nat) (s : String) : Decidable (b.TextAt q s) :=
  decidable_of_iff (_ ∧ _ ∧ _) ⟨fun h => ⟨h.1, h.2.1, h.2.2⟩, fun h => ⟨h.aligned, h.short, h.holds⟩⟩

instance (b : Image) (q : Nat) (ws : List UInt32) : Decidable (b.WordsAt q ws) :=
  decidable_of_iff (_ ∧ _ ∧ _) ⟨fun h => ⟨h.1, h.2.1, h.2.2⟩, fun h => ⟨h.aligned, h.short, h.holds⟩⟩

instance (b : Image) (q : Nat) (targets : List Nat) : Decidable (b.ReferencesAt q targets) :=
  decidable_of_iff (_ ∧ _ ∧ _ ∧ _)
    ⟨fun ⟨h₁, h₂, h₃, h₄⟩ => ⟨h₁, h₂, h₃, h₄⟩, fun ⟨h₁, h₂, h₃, h₄⟩ => ⟨h₁, h₂, h₃, h₄⟩⟩

theorem Refers.follow_eq {b : Image} {i q : Nat} (h : b.Refers i q) : b.follow i = q := by
  have hforward := h.forward
  rw [follow, h.holds.numberAt h.near]
  omega

/-- What is followed is a reference if it leads forward. -/
theorem refers_follow {b : Image} {i : Nat} (hforward : 0 < b.numberAt 4 i) (hi : i + 4 ≤ b.size) :
    b.Refers i (b.follow i) := by
  have hdistance : b.follow i - i = b.numberAt 4 i := Nat.add_sub_cancel_left ..
  refine ⟨Nat.lt_add_of_pos_right hforward, ?_, ?_⟩
  · rw [hdistance]
    exact b.numberAt_lt 4 i
  · rw [hdistance]
    exact holdsAt_numberAt hi

theorem TextAt.text_eq {b : Image} {q : Nat} {s : String} (h : b.TextAt q s) :
    b.text q = Text.utf8 s.toList := by
  have hholds := h.holds.holds
  rw [← List.append_assoc] at hholds
  exact hholds.append_left.text h.short h.holds.add_eq

theorem WordsAt.words_eq {b : Image} {q : Nat} {ws : List UInt32} (h : b.WordsAt q ws) : b.words q = ws :=
  h.holds.holds.words h.short h.holds.add_eq

theorem ReferencesAt.follow_elements {b : Image} {q : Nat} {targets : List Nat} (h : b.ReferencesAt q targets) :
    (b.elements q).map b.follow = targets := by
  rw [elements, h.length.numberAt h.short, List.map_map]
  refine List.ext_getElem (by simp) fun k h₁ h₂ => ?_
  rw [List.getElem_map, List.getElem_range]
  exact (h.refers k h₂).follow_eq

/-- The tables of a vector are those that its references lead to. -/
theorem ReferencesAt.tables_eq {b : Image} {q : Nat} {targets : List Nat} (h : b.ReferencesAt q targets) :
    ((b.elements q).map fun e => (⟨b, b.follow e⟩ : Table)) = targets.map (Table.mk b) := by
  rw [← h.follow_elements, List.map_map]
  rfl

end Image

/-! ## Tables -/

/-- A vtable at a position: the length of the tables that have it, and the place of each slot in them, which is
zero for a slot that they do not hold. -/
structure Vtable where
  position : Nat
  length : Nat
  places : List Nat

namespace Vtable

/-- The numbers of a vtable: its own length in bytes, that of a table, and the places. -/
def numbers (v : Vtable) : List Nat :=
  (4 + 2 * v.places.length) :: v.length :: v.places

/-- The place of a slot, if a table holds it. -/
def place? (v : Vtable) (s : Nat) : Option Nat :=
  v.places[s]?.filter (· ≠ 0)

/-- A field of a width lies at a place of a table at a position, behind the distance to the vtable. -/
structure Covers (v : Vtable) (p n width : Nat) : Prop where
  aligned : (p + n) % width = 0
  after : 4 ≤ n
  inside : n + width ≤ v.length

instance (v : Vtable) (p n width : Nat) : Decidable (v.Covers p n width) :=
  decidable_of_iff (_ ∧ _ ∧ _) ⟨fun h => ⟨h.1, h.2.1, h.2.2⟩, fun h => ⟨h.aligned, h.after, h.inside⟩⟩

end Vtable

/-- The vtable that is read at a position. -/
def Image.vtableAt (b : Image) (v : Nat) : Vtable where
  position := v
  length := b.numberAt 2 (v + 2)
  places := (List.range ((b.numberAt 2 v - 4) / 2)).map fun s => b.numberAt 2 (v + (4 + 2 * s))

/-- The numbers of a vtable are read one behind the other. -/
theorem Image.numbers_vtableAt {b : Image} {v : Nat} (heven : b.numberAt 2 v % 2 = 0)
    (hle : 4 ≤ b.numberAt 2 v) :
    (b.vtableAt v).numbers = (List.range (b.numberAt 2 v / 2)).map fun k => b.numberAt 2 (v + 2 * k) := by
  obtain ⟨k, hk⟩ : ∃ k, b.numberAt 2 v = 2 * (k + 2) := ⟨(b.numberAt 2 v - 4) / 2, by omega⟩
  have hslots : (2 * (k + 2) - 4) / 2 = k := by omega
  have hcount : 2 * (k + 2) / 2 = k + 1 + 1 := by omega
  have hfirst : 4 + 2 * k = 2 * (k + 2) := by omega
  simp only [Vtable.numbers, vtableAt, hk, hslots, hcount, List.range_succ_eq_map, List.map_cons, List.map_map,
    List.length_map, List.length_range, Nat.mul_zero, Nat.add_zero, hfirst]
  refine congrArg (_ :: _ :: ·) (List.map_congr_left fun s _ => ?_)
  rw [Function.comp_apply, Function.comp_apply, show 4 + 2 * s = 2 * (s + 1 + 1) by omega]

/-- A table with a vtable stands at a position. The vtable may stand on either side of it, and may be that of
other tables, too. -/
structure Image.TableAt (b : Image) (p : Nat) (v : Vtable) : Prop where
  aligned : p % 4 = 0
  before : (v.position : Int) - p ≤ 0x80000000
  after : (p : Int) - v.position < 0x80000000
  distance : b.HoldsAt p (distance (p - v.position))
  vtable_aligned : v.position % 2 = 0
  short : ∀ n ∈ v.numbers, n < 0x10000
  vtable : b.HoldsAt v.position (vtableBytes v.numbers)
  le_length : 4 ≤ v.length
  inside : p + v.length ≤ b.size

instance (b : Image) (p : Nat) (v : Vtable) : Decidable (b.TableAt p v) :=
  decidable_of_iff (_ ∧ _ ∧ _ ∧ _ ∧ _ ∧ _ ∧ _ ∧ _ ∧ _)
    ⟨fun ⟨h₁, h₂, h₃, h₄, h₅, h₆, h₇, h₈, h₉⟩ => ⟨h₁, h₂, h₃, h₄, h₅, h₆, h₇, h₈, h₉⟩,
      fun ⟨h₁, h₂, h₃, h₄, h₅, h₆, h₇, h₈, h₉⟩ => ⟨h₁, h₂, h₃, h₄, h₅, h₆, h₇, h₈, h₉⟩⟩

namespace Image.TableAt

variable {b : Image} {p : Nat} {v : Vtable}

theorem vtable_eq (h : b.TableAt p v) : Table.vtable ⟨b, p⟩ = v.position := by
  have hbefore := h.before
  have hafter := h.after
  have hlt : (((p : Int) - v.position) % 0x100000000).toNat < Nat.pow 256 4 := by
    show _ < 0x100000000
    omega
  show ((p : Int) - Int.bmod (b.numberAt 4 p) 0x100000000).toNat = _
  rw [HoldsAt.numberAt h.distance hlt, Writer.bmod_distance (by omega) hafter]
  omega

/-- The numbers of the vtable are read one behind the other. -/
theorem numberAt_eq (h : b.TableAt p v) {k n : Nat} (hk : v.numbers[k]? = some n) :
    b.numberAt 2 (v.position + 2 * k) = n := by
  have hrow := h.vtable.holds.flatMap (fun n => LittleEndian.length_encode 2 n) hk
  have hle := h.vtable.le_size
  have hlt := (List.getElem?_eq_some_iff.mp hk).1
  rw [Writer.length_vtableBytes] at hle
  exact hrow.numberAt (h.short n (List.mem_of_getElem? hk)) (by rw [Array.length_toList]; omega)

/-- A reader finds a slot at the place that the vtable has for it, be the vtable long or short. -/
theorem slot?_eq (h : b.TableAt p v) (s : Nat) : Table.slot? ⟨b, p⟩ s = (v.place? s).map (p + ·) := by
  have hlength : b.numberAt 2 v.position = 4 + 2 * v.places.length := by
    have hnumber := h.numberAt_eq (k := 0) (List.getElem?_cons_zero ..)
    rwa [Nat.mul_zero, Nat.add_zero] at hnumber
  simp only [Table.slot?, h.vtable_eq, hlength, Vtable.place?]
  cases hs : v.places[s]? with
  | none =>
    have hle := List.getElem?_eq_none_iff.mp hs
    rw [if_pos (by omega)]
    rfl
  | some n =>
    have hlt := (List.getElem?_eq_some_iff.mp hs).1
    have hplace : b.numberAt 2 (v.position + (4 + 2 * s)) = n := by
      have hnumber := h.numberAt_eq (k := s + 2) (n := n) <| by
        rw [Vtable.numbers, List.getElem?_cons_succ, List.getElem?_cons_succ, hs]
      rwa [show 2 * (s + 2) = 4 + 2 * s by omega] at hnumber
    rw [if_neg (by omega), hplace]
    by_cases hn : n = 0
    · rw [if_pos hn, hn]
      rfl
    · rw [if_neg hn, Option.filter_some_pos (by simpa using hn), Option.map_some]

end Image.TableAt

end NetPack.Buffer
