import NetPack.Proofs.Schema.LogicalModel
import NetPack.Proofs.Schema.Safety

/-!
# Well-formed buffers lay out logical models

What a reader takes for granted is enough for what it reads to stand where it reads it: a text, a vector or a
table that lies in the buffer is laid out there, byte by byte, and a safe table can be read
(`SafeTable.readable`). So a well-formed buffer lays out a logical model (`WellFormed.exists_represents`), and
the bytes of a network lay out one whose content is that of the network (`Network.exists_represents`).
-/

namespace NetPack.Buffer

/-! ## Texts, vectors and tables -/

namespace Image

variable {b : Image} {q : Nat}

/-- A vector of words that lies in the image stands where it is read. -/
theorem Vector.wordsAt (h : b.Vector 0 q 4) : b.WordsAt q (b.words q) := by
  have haligned := h.aligned
  have hinside := h.inside
  have hlength : (b.words q).length = b.numberAt 4 q := by simp [words, elements]
  refine ⟨by omega, hlength ▸ b.numberAt_lt 4 q, ?_⟩
  rw [hlength]
  refine (holdsAt_numberAt (by omega)).append ?_
  have hword : ∀ e, (UInt32.ofNat (b.numberAt 4 e)).toNat = b.numberAt 4 e := fun e =>
    UInt32.toNat_ofNat_of_lt' (b.numberAt_lt 4 e)
  rw [LittleEndian.length_encode, words, elements, List.map_map, List.flatMap_map]
  simp only [Function.comp_apply, hword]
  exact holdsAt_numbers (by omega)

/-- A text that lies in the image stands where it is read. -/
theorem ZeroEnded.textAt {s : String} (h : b.ZeroEnded 0 q) (hs : b.text q = Text.utf8 s.toList) :
    b.TextAt q s := by
  have haligned := h.aligned
  have hinside := h.inside
  have hlength : (Text.utf8 s.toList).length = b.numberAt 4 q := by
    rw [← hs, text, List.length_map, List.length_range]
  refine ⟨by omega, hlength ▸ b.numberAt_lt 4 q, ?_⟩
  rw [hlength]
  refine (holdsAt_numberAt (by omega)).append ?_
  rw [LittleEndian.length_encode]
  refine HoldsAt.append ?_ ?_
  · rw [← hs]
    exact holdsAt_bytes (by omega)
  · rw [hlength, ← h.zero]
    exact holdsAt_byteAt (by omega)

/-- A vector of references that lies in the image stands where it is read. -/
theorem Vector.referencesAt (h : b.Vector 0 q 4) (hforward : ∀ e ∈ b.elements q, 0 < b.numberAt 4 e) :
    b.ReferencesAt q ((b.elements q).map b.follow) := by
  have haligned := h.aligned
  have hinside := h.inside
  have hlength : ((b.elements q).map b.follow).length = b.numberAt 4 q := by simp [elements]
  refine ⟨by omega, hlength ▸ b.numberAt_lt 4 q, ?_, fun k hk => ?_⟩
  · rw [hlength]
    exact holdsAt_numberAt (by omega)
  · have hplace : q + 4 + 4 * k ∈ b.elements q :=
      List.mem_map.mpr ⟨k, List.mem_range.mpr (hlength ▸ hk), rfl⟩
    have htarget : ((b.elements q).map b.follow)[k] = b.follow (q + 4 + 4 * k) := by
      simp [elements]
    rw [htarget]
    exact refers_follow (hforward _ hplace) (by omega)

end Image

namespace Table

variable {x : Table}

/-- A table that lies in the image with its vtable stands where it is read. -/
theorem Framed.tableAt (h : x.Framed 0) : x.image.TableAt x.position (x.image.vtableAt x.vtable) := by
  have haligned := h.aligned
  have hvaligned := h.vtable_aligned
  have hlength : 4 ≤ x.image.numberAt 2 (x.vtable + 2) := h.le_length
  have hinside : x.position + x.image.numberAt 2 (x.vtable + 2) ≤ x.image.size := h.inside
  have hvinside : x.vtable + x.image.numberAt 2 x.vtable ≤ x.image.size := h.vtable_inside
  have heven : x.image.numberAt 2 x.vtable % 2 = 0 := h.vtableLength_even
  have hnumbers := Image.numbers_vtableAt heven h.le_vtableLength
  have hvtable : (x.vtable : Int) = x.position - Int.bmod (x.image.numberAt 4 x.position) 0x100000000 :=
    Int.toNat_of_nonneg (Int.sub_nonneg_of_le h.vtable_nonneg)
  obtain ⟨hge, hlt, hdistance⟩ := Writer.distance_bmod (x.image.numberAt_lt 4 x.position)
  -- Nothing else is to know of the vtable than its distance and its numbers.
  generalize x.vtable = v at *
  refine { aligned := by omega, before := ?before, after := ?after, distance := ?distance,
           vtable_aligned := ?vtable_aligned, short := ?short, vtable := ?vtable, le_length := hlength,
           inside := hinside }
  case before =>
    show (v : Int) - x.position ≤ _
    omega
  case after =>
    show (x.position : Int) - v < _
    omega
  case distance =>
    show x.image.HoldsAt x.position (Writer.distance (x.position - v))
    rw [hvtable, Int.sub_sub_self, hdistance]
    exact Image.holdsAt_numberAt (by omega)
  case vtable_aligned =>
    show v % 2 = 0
    omega
  case short =>
    rw [hnumbers]
    intro n hn
    obtain ⟨k, -, rfl⟩ := List.mem_map.mp hn
    exact x.image.numberAt_lt 2 _
  case vtable =>
    have hread : v + 2 * (x.image.numberAt 2 v / 2) ≤ x.image.size := by omega
    rw [Writer.vtableBytes, hnumbers, List.flatMap_map]
    exact Image.holdsAt_numbers hread

/-- A field that lies in a table is at a place that the vtable covers. -/
theorem Field.covers {n w : Nat} (h : x.Field 0 (x.position + n) w) :
    (x.image.vtableAt x.vtable).Covers x.position n w := by
  have haligned := h.aligned
  have hafter := h.after
  have hinside : x.position + n + w ≤ x.position + (x.image.vtableAt x.vtable).length := h.inside
  exact ⟨by rwa [Nat.zero_add] at haligned, by omega, by omega⟩

end Table

end NetPack.Buffer

namespace NetPack.Schema

open Buffer (Image Table)

/-! ## Safe tables -/

/-- What a field leads to stands as its type asks for. -/
theorem Leads.refers {b : Image} {i : Nat} {f : FieldType} (h : Leads b i f) (hi : i + f.width ≤ b.size) :
    Refers b i f := by
  cases f with
  | byte | word => trivial
  | text =>
    obtain ⟨hforward, ended, cs, hcs⟩ := h
    have htext : b.text (b.follow i) = Text.utf8 (String.ofList cs).toList := by
      rw [hcs, String.toList_ofList]
    exact ⟨_, _, Image.refers_follow hforward hi, ended.textAt htext⟩
  | words =>
    obtain ⟨hforward, vector⟩ := h
    exact ⟨_, _, Image.refers_follow hforward hi, vector.wordsAt⟩
  | table | member => exact ⟨_, Image.refers_follow h hi⟩
  | tables =>
    obtain ⟨hforward, vector, helements⟩ := h
    exact ⟨_, _, Image.refers_follow hforward hi, vector.referencesAt helements⟩

/-- A safe table can be read. -/
theorem SafeTable.readable {t : TableType} {x : Table} (h : SafeTable t x) :
    ReadableTable x.image t x.position (x.image.vtableAt x.vtable) := by
  have stands := h.framed.tableAt
  refine ⟨stands, fun s f n hf hn => ?_⟩
  have hi : x.slot? s = some (x.position + n) := by
    rw [stands.slot?_eq s, hn, Option.map_some]
  obtain ⟨f', hf', placed, leads⟩ := h.field s _ hi
  cases hf.symm.trans hf'
  have hend := placed.inside
  have hinside := h.framed.inside
  exact ⟨placed.covers, leads.refers (by omega)⟩

/-- A way along references is a chain of accessors. -/
theorem reaches_of_onward {b : Image} {p q : Nat} {t t' : TableType}
    (h : Relation.ReflTransGen (Onward b) (t, p) (t', q)) : Reaches t (⟨b, p⟩ : Table) t' ⟨b, q⟩ := by
  generalize hy : (t', q) = y at h
  induction h generalizing t' q with
  | refl =>
    cases hy
    exact .refl
  | @tail y z chain last ih =>
    subst hy
    exact .tail (ih rfl) last.access

/-! ## Well-formed buffers -/

/-- A well-formed buffer can be read. -/
theorem WellFormed.readable {b : Image} (h : WellFormed b) : Readable b :=
  ⟨b.follow 0, Image.refers_follow h.root_forward h.root_inside, fun t p hp =>
    ⟨_, (h.safe t ⟨b, p⟩ (reaches_of_onward hp)).readable⟩⟩

/-- A well-formed buffer lays out a logical model. -/
theorem WellFormed.exists_represents {b : Image} (h : WellFormed b) : ∃ m, Represents b m :=
  readable_iff_exists_represents.mp h.readable

end NetPack.Schema

namespace NetPack

open Schema
open Buffer.Writer (sizeLimit)

/-- The bytes of a network lay out a logical model that has the content of the network. -/
theorem Network.exists_represents (n : Network) (h : n.toBytes.length < sizeLimit) :
    ∃ m, Represents n.toBytes.toArray m ∧ m.model = n.content := by
  obtain ⟨m, hm⟩ := (n.wellFormed h).exists_represents
  exact ⟨m, hm, hm.content_eq.symm.trans (n.content_ofBytes h)⟩

end NetPack
