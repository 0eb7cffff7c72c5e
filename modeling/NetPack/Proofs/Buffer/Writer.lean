import NetPack.Buffer.Writer
import NetPack.Proofs.Bytes.Number

/-!
# What a write leaves in a buffer

A buffer grows at its front, so a place in it is best told by its distance from the end: `Holds buffer
o bs` says that the bytes `bs` stand there, and it stays true whatever is put in front
(`Holds.of_suffix`). Each primitive of the writer is described by what the new buffer holds at its own
front (`put_cell`, `fronted_text`, `fronted_words`, `listed_references`); that it has the old buffer as a
suffix is all there is to say about what was written before. How much a write adds at most can be told
without the buffer (`size_text_le`, `size_words_le`, `size_references_le`).
-/

namespace NetPack.Buffer

/-- The bytes `bs` stand in the buffer and start `o` bytes before its end. -/
def Holds (buffer : List UInt8) (o : Nat) (bs : List UInt8) : Prop :=
  ∃ front back, buffer = front ++ (bs ++ back) ∧ (bs ++ back).length = o

namespace Holds

variable {buffer bs cs : List UInt8} {o : Nat}

theorem front (bs cs : List UInt8) : Holds (bs ++ cs) (bs ++ cs).length bs :=
  ⟨[], cs, rfl, rfl⟩

theorem le_length (h : Holds buffer o bs) : o ≤ buffer.length := by
  obtain ⟨front, back, rfl, rfl⟩ := h
  simp

theorem length_le (h : Holds buffer o bs) : bs.length ≤ o := by
  obtain ⟨front, back, -, rfl⟩ := h
  simp

theorem of_suffix {larger : List UInt8} (h : Holds buffer o bs) (hs : buffer <:+ larger) :
    Holds larger o bs := by
  obtain ⟨front, back, rfl, ho⟩ := h
  obtain ⟨more, rfl⟩ := hs
  exact ⟨more ++ front, back, by simp, ho⟩

theorem append_left (h : Holds buffer o (bs ++ cs)) : Holds buffer o bs := by
  obtain ⟨front, back, rfl, rfl⟩ := h
  exact ⟨front, cs ++ back, by simp, by simp⟩

theorem append_right (h : Holds buffer o (bs ++ cs)) : Holds buffer (o - bs.length) cs := by
  obtain ⟨front, back, rfl, rfl⟩ := h
  refine ⟨front ++ bs, back, by simp, ?_⟩
  simp only [List.length_append]
  omega

/-- In a row of encodings of one width each stands at its place. -/
theorem flatMap {α : Type} {f : α → List UInt8} {width : Nat} {l : List α} {k : Nat} {a : α}
    (h : Holds buffer o (l.flatMap f)) (hf : ∀ a, (f a).length = width) (hk : l[k]? = some a) :
    Holds buffer (o - width * k) (f a) := by
  induction l generalizing o k with
  | nil => simp at hk
  | cons b l ih =>
    rw [List.flatMap_cons] at h
    cases k with
    | zero =>
      obtain rfl : b = a := by simpa using hk
      exact h.append_left
    | succ k =>
      have ht := ih h.append_right (by simpa using hk)
      rwa [hf, Nat.sub_sub, Nat.add_comm width, ← Nat.mul_add_one] at ht

/-- A number is read where its encoding stands. -/
theorem numberAt {width n p : Nat} (h : Holds buffer o (LittleEndian.encode width n))
    (hn : n < Nat.pow 256 width) (hp : p + o = buffer.length) :
    Image.numberAt buffer.toArray width p = n := by
  obtain ⟨front, back, rfl, rfl⟩ := h
  obtain rfl : p = front.length := by
    simp only [List.length_append] at hp
    omega
  rw [Image.numberAt_toArray (by simp), List.drop_left, List.take_left' (by simp),
    LittleEndian.decode_encode hn]

/-- A byte is read where it stands. -/
theorem byteAt {b : UInt8} {p k : Nat} (h : Holds buffer o bs) (hk : bs[k]? = some b)
    (hp : p + o = buffer.length) : Image.byteAt buffer.toArray (p + k) = b := by
  obtain ⟨front, back, rfl, rfl⟩ := h
  obtain rfl : p = front.length := by
    simp only [List.length_append] at hp
    omega
  have hlt := (List.getElem?_eq_some_iff.mp hk).1
  rw [Image.byteAt_toArray, List.getD_eq_getElem?_getD, List.getElem?_append_right (by omega),
    Nat.add_sub_cancel_left, List.getElem?_append_left hlt, hk, Option.getD_some]

/-- A text is read where its length and its bytes stand. -/
theorem text {p : Nat} (h : Holds buffer o (LittleEndian.encode 4 bs.length ++ bs))
    (hn : bs.length < 0x100000000) (hp : p + o = buffer.length) : Image.text buffer.toArray p = bs := by
  have hlen := h.length_le
  rw [List.length_append, LittleEndian.length_encode] at hlen
  have hbytes : Holds buffer (o - 4) bs := h.append_right
  rw [Image.text, h.append_left.numberAt hn hp]
  apply List.ext_getElem (by simp)
  intro k h₁ h₂
  rw [List.getElem_map, List.getElem_range]
  exact hbytes.byteAt (List.getElem?_eq_getElem h₂) (by omega)

/-- A vector of words is read where its length and its words stand. -/
theorem words {ws : List UInt32} {p : Nat}
    (h : Holds buffer o (LittleEndian.encode 4 ws.length ++ ws.flatMap fun v => LittleEndian.encode 4 v.toNat))
    (hn : ws.length < 0x100000000) (hp : p + o = buffer.length) : Image.words buffer.toArray p = ws := by
  have hwords : Holds buffer (o - 4) (ws.flatMap fun v => LittleEndian.encode 4 v.toNat) := h.append_right
  rw [Image.words, Image.elements, h.append_left.numberAt hn hp]
  apply List.ext_getElem (by simp)
  intro k h₁ h₂
  have hk := hwords.flatMap (fun v => LittleEndian.length_encode 4 v.toNat) (List.getElem?_eq_getElem h₂)
  have hle := hk.length_le
  rw [LittleEndian.length_encode] at hle
  rw [List.getElem_map, List.getElem_map, List.getElem_range, hk.numberAt ws[k].toNat_lt (by omega),
    UInt32.ofNat_toNat]

end Holds

namespace Writer

/-! ## Alignment -/

theorem gap_one (size : Nat) : gap size 1 = 0 := by
  simp [gap, Nat.mod_one]

theorem gap_four_lt (size : Nat) : gap size 4 < 4 := by
  simp only [gap]
  omega

theorem add_gap_four (size : Nat) : (size + gap size 4) % 4 = 0 := by
  simp only [gap]
  omega

theorem gap_four_of_aligned {size : Nat} (h : size % 4 = 0) : gap size 4 = 0 := by
  simp only [gap]
  omega

theorem suffix_prepend (w : Writer) (bs : List UInt8) : w.bytes <:+ (w.prepend bs).bytes :=
  ⟨bs, rfl⟩

theorem suffix_align (w : Writer) (length alignment : Nat) :
    w.bytes <:+ (w.align length alignment).bytes :=
  w.suffix_prepend _

theorem size_align (w : Writer) (length alignment : Nat) :
    (w.align length alignment).size = w.size + gap (w.size + length) alignment := by
  simp [align, prepend, Nat.add_comm]

theorem size_align_four_le (w : Writer) (length : Nat) : (w.align length 4).size ≤ w.size + 3 := by
  have hgap := gap_four_lt (w.size + length)
  rw [size_align]
  omega

/-- Words may follow, as many as the alignment is for. -/
theorem size_align_words (w : Writer) (count : Nat) : (w.align (4 * count) 4).size % 4 = 0 := by
  have hg := add_gap_four (w.size + 4 * count)
  rw [size_align]
  omega

/-- What is put in front stands there. -/
theorem holds_prepend (w : Writer) (bs : List UInt8) :
    Holds (w.prepend bs).bytes (w.prepend bs).size bs := by
  rw [(w.prepend bs).size_eq]
  exact Holds.front bs w.bytes

/-- Once the buffer is aligned, a number goes right in front. -/
theorem bytes_number_of_aligned {w : Writer} {width : Nat} (n : Nat)
    (h : gap (w.size + width) width = 0) :
    (w.number width n).bytes = LittleEndian.encode width n ++ w.bytes := by
  simp [number, align, prepend, h]

theorem size_number_of_aligned {w : Writer} (n : Nat) (h : w.size % 4 = 0) : (w.number 4 n).size = 4 + w.size := by
  have hg : gap (w.size + 4) 4 = 0 := gap_four_of_aligned (by omega)
  rw [size_eq, bytes_number_of_aligned n hg, List.length_append, LittleEndian.length_encode, w.size_eq]

/-! ## Cells -/

/-- The bytes of a cell in its table. -/
def Cell.width : Cell → Nat
  | .byte _ => 1
  | .word _ => 4
  | .reference _ => 4

/-- What a cell puts in front of a buffer that then has a size. -/
def Cell.bytes (size : Nat) : Cell → List UInt8
  | .byte v => LittleEndian.encode 1 v.toNat
  | .word v => LittleEndian.encode 4 v.toNat
  | .reference o => LittleEndian.encode 4 (size - o)

/-- What a cell does to a buffer: it stands at the front, aligned to its width. -/
structure Put (w w' : Writer) (c : Cell) : Prop where
  suffix : w.bytes <:+ w'.bytes
  vtables : w'.vtables = w.vtables
  le_size : w.size + c.width ≤ w'.size
  size_le : w'.size ≤ w.size + 7
  aligned : w'.size % c.width = 0
  holds : Holds w'.bytes w'.size (c.bytes w'.size)

theorem put_cell (w : Writer) (c : Cell) : Put w (w.cell c) c := by
  cases c with
  | byte v =>
    have hs : (w.cell (.byte v)).size = w.size + 1 := by
      simp [cell, number, align, prepend, gap_one, Nat.add_comm]
    refine ⟨(w.suffix_align 1 1).trans (suffix_prepend _ _), rfl, ?_, ?_, ?_, holds_prepend _ _⟩
    · exact Nat.le_of_eq hs.symm
    · omega
    · exact Nat.mod_one _
  | word v =>
    have hs : (w.cell (.word v)).size = w.size + gap (w.size + 4) 4 + 4 := by
      simp [cell, number, align, prepend]
      omega
    have hg := gap_four_lt (w.size + 4)
    have ha := add_gap_four (w.size + 4)
    refine ⟨(w.suffix_align 4 4).trans (suffix_prepend _ _), rfl, ?_, ?_, ?_, holds_prepend _ _⟩
    · show w.size + 4 ≤ _
      omega
    · omega
    · show _ % 4 = 0
      omega
  | reference o =>
    have hs : (w.cell (.reference o)).size = w.size + gap (w.size + 4) 4 + 4 := by
      simp [cell, reference, align, prepend]
      omega
    have hg := gap_four_lt (w.size + 4)
    have ha := add_gap_four (w.size + 4)
    have he : (w.cell (.reference o)).size - o = (w.align 4 4).size + 4 - o := by
      rw [hs, size_align]
    refine ⟨(w.suffix_align 4 4).trans (suffix_prepend _ _), rfl, ?_, ?_, ?_, ?_⟩
    · show w.size + 4 ≤ _
      omega
    · omega
    · show _ % 4 = 0
      omega
    · show Holds _ _ (LittleEndian.encode 4 ((w.cell (.reference o)).size - o))
      rw [he]
      exact holds_prepend _ _

/-! ## Texts and vectors -/

/-- What the write of a whole object without a table does to a buffer: its bytes stand at the front,
and the front is aligned. -/
structure Fronted (w w' : Writer) (bs : List UInt8) : Prop where
  suffix : w.bytes <:+ w'.bytes
  vtables : w'.vtables = w.vtables
  aligned : w'.size % 4 = 0
  holds : Holds w'.bytes w'.size bs

/-- A length in front of aligned contents. -/
theorem fronted_number {w w' : Writer} {bs : List UInt8} (n : Nat) (h : Fronted w w' bs) :
    Fronted w (w'.number 4 n) (LittleEndian.encode 4 n ++ bs) := by
  have hg : gap (w'.size + 4) 4 = 0 := gap_four_of_aligned (by have := h.aligned; omega)
  have hb := bytes_number_of_aligned n hg
  have hs := size_number_of_aligned n h.aligned
  refine ⟨h.suffix.trans ⟨_, hb.symm⟩, h.vtables, by have := h.aligned; omega, ?_⟩
  obtain ⟨front, back, hf, ho⟩ := h.holds
  obtain rfl : front = [] := by
    have hl := congrArg List.length hf
    rw [← w'.size_eq, List.length_append, ho] at hl
    exact List.eq_nil_of_length_eq_zero (by omega)
  refine ⟨[], back, by rw [hb, hf]; simp, ?_⟩
  rw [hs, ← ho]
  simp

theorem fronted_prepend (w : Writer) (bs : List UInt8) :
    Fronted w ((w.align bs.length 4).prepend bs) bs := by
  refine ⟨(w.suffix_align _ _).trans (suffix_prepend _ _), rfl, ?_, holds_prepend _ _⟩
  have ha := add_gap_four (w.size + bs.length)
  have hs : ((w.align bs.length 4).prepend bs).size
      = bs.length + (w.size + gap (w.size + bs.length) 4) := by
    rw [← size_align]
    rfl
  omega

theorem fronted_text (w : Writer) (bs : List UInt8) :
    Fronted w (w.text bs) (LittleEndian.encode 4 bs.length ++ (bs ++ [0])) := by
  have h := fronted_prepend w (bs ++ [0])
  rw [List.length_append, List.length_singleton] at h
  exact fronted_number bs.length h

theorem length_flatMap_encode (ws : List UInt32) :
    (ws.flatMap fun v => LittleEndian.encode 4 v.toNat).length = 4 * ws.length := by
  simp [List.length_flatMap, List.map_const', Nat.mul_comm]

theorem fronted_words (w : Writer) (ws : List UInt32) :
    Fronted w (w.words ws)
      (LittleEndian.encode 4 ws.length ++ ws.flatMap fun v => LittleEndian.encode 4 v.toNat) := by
  have h := fronted_prepend w (ws.flatMap fun v => LittleEndian.encode 4 v.toNat)
  rw [length_flatMap_encode] at h
  exact fronted_number ws.length h

theorem size_prepend (w : Writer) (bs : List UInt8) : (w.prepend bs).size = bs.length + w.size :=
  rfl

theorem prepend_nil (w : Writer) : w.prepend [] = w := by
  simp [prepend]

theorem prepend_prepend (w : Writer) (bs cs : List UInt8) :
    (w.prepend bs).prepend cs = w.prepend (cs ++ bs) := by
  simp [prepend, Nat.add_assoc]

theorem foldr_number (w : Writer) (ws : List UInt32) (h : w.size % 4 = 0) :
    ws.foldr (fun v u => u.number 4 v.toNat) w
      = w.prepend (ws.flatMap fun v => LittleEndian.encode 4 v.toNat) := by
  induction ws with
  | nil => exact w.prepend_nil.symm
  | cons v ws ih =>
    have hsize : (w.prepend (ws.flatMap fun v => LittleEndian.encode 4 v.toNat)).size % 4 = 0 := by
      rw [size_prepend, length_flatMap_encode]
      omega
    rw [List.foldr_cons, ih, List.flatMap_cons, number, align, gap_four_of_aligned (by omega), List.replicate_zero,
      prepend_nil, prepend_prepend]

/-- Writes a vector word by word, the last one first, and its length in front of all. -/
def pushWords (w : Writer) (ws : List UInt32) : Writer :=
  (ws.foldr (fun v u => u.number 4 v.toNat) (w.align (4 * ws.length) 4)).number 4 ws.length

theorem words_eq_pushWords (w : Writer) (ws : List UInt32) : w.words ws = w.pushWords ws := by
  rw [words, pushWords, foldr_number _ _ (w.size_align_words ws.length)]

/-- References that are pushed one after the other stand in a row, each with its distance to its
object. -/
structure Row (w w' : Writer) (offsets : List Nat) : Prop where
  suffix : w.bytes <:+ w'.bytes
  vtables : w'.vtables = w.vtables
  size : w'.size = w.size + 4 * offsets.length
  holds : ∀ k o, offsets[k]? = some o →
    Holds w'.bytes (w'.size - 4 * k) (LittleEndian.encode 4 (w'.size - 4 * k - o))

theorem row_foldr (w : Writer) (offsets : List Nat) (h : w.size % 4 = 0) :
    Row w (offsets.foldr (fun o w => w.reference o) w) offsets := by
  induction offsets with
  | nil => exact ⟨List.suffix_rfl, rfl, rfl, by simp⟩
  | cons o os ih =>
    have hs := ih.size
    rw [List.foldr_cons]
    generalize os.foldr (fun o w => w.reference o) w = v at ih hs
    have hg : gap (v.size + 4) 4 = 0 := gap_four_of_aligned (by omega)
    have hb : (v.reference o).bytes = LittleEndian.encode 4 (v.size + 4 - o) ++ v.bytes := by
      simp [reference, align, prepend, hg]
    have hv : (v.reference o).size = v.size + 4 := by
      rw [size_eq, hb, v.size_eq]
      simp [Nat.add_comm]
    have hsuf : v.bytes <:+ (v.reference o).bytes := ⟨_, hb.symm⟩
    refine ⟨ih.suffix.trans hsuf, ih.vtables, by simp only [List.length_cons]; omega, ?_⟩
    intro k a hk
    cases k with
    | zero =>
      obtain rfl : o = a := by simpa using hk
      rw [Nat.mul_zero, Nat.sub_zero, hv]
      refine ⟨[], v.bytes, by simp [hb], ?_⟩
      simp [v.size_eq, Nat.add_comm]
    | succ k =>
      have hh := (ih.holds k a (by simpa using hk)).of_suffix hsuf
      have he : (v.reference o).size - 4 * (k + 1) = v.size - 4 * k := by omega
      rwa [he]

/-- A vector of references: its length at the front, and behind it the references. -/
structure Listed (w w' : Writer) (offsets : List Nat) : Prop where
  suffix : w.bytes <:+ w'.bytes
  vtables : w'.vtables = w.vtables
  aligned : w'.size % 4 = 0
  le_size : w.size + 4 + 4 * offsets.length ≤ w'.size
  length : Holds w'.bytes w'.size (LittleEndian.encode 4 offsets.length)
  holds : ∀ k o, offsets[k]? = some o →
    Holds w'.bytes (w'.size - (4 + 4 * k)) (LittleEndian.encode 4 (w'.size - (4 + 4 * k) - o))

theorem listed_references (w : Writer) (offsets : List Nat) :
    Listed w (w.references offsets) offsets := by
  have ha := w.size_align_words offsets.length
  have hle : w.size ≤ (w.align (4 * offsets.length) 4).size := by
    rw [size_align]
    omega
  have hr := row_foldr _ offsets ha
  have hs := hr.size
  unfold references
  generalize offsets.foldr (fun o w => w.reference o) (w.align (4 * offsets.length) 4) = v at hr hs
  have hg : gap (v.size + 4) 4 = 0 := gap_four_of_aligned (by omega)
  have hb := bytes_number_of_aligned offsets.length hg
  have hv : (v.number 4 offsets.length).size = v.size + 4 := by
    rw [size_eq, hb, v.size_eq]
    simp [Nat.add_comm]
  have hsuf : v.bytes <:+ (v.number 4 offsets.length).bytes := ⟨_, hb.symm⟩
  refine ⟨((w.suffix_align _ _).trans hr.suffix).trans hsuf, hr.vtables, by omega, by omega,
    ⟨[], v.bytes, by simp [hb], ?_⟩, ?_⟩
  · simp [hv, v.size_eq, Nat.add_comm]
  · intro k o hk
    have hh := (hr.holds k o hk).of_suffix hsuf
    have he : (v.number 4 offsets.length).size - (4 + 4 * k) = v.size - 4 * k := by omega
    rwa [he]

/-! ## How much is written -/

/-- Bytes behind their length. -/
theorem size_number_prepend_le (w : Writer) (bs : List UInt8) (n : Nat) :
    (((w.align bs.length 4).prepend bs).number 4 n).size ≤ w.size + bs.length + 7 := by
  have halign := w.size_align_four_le bs.length
  rw [size_number_of_aligned n (w.fronted_prepend bs).aligned, size_prepend]
  omega

theorem size_text_le (w : Writer) (bs : List UInt8) : (w.text bs).size ≤ w.size + bs.length + 8 := by
  have h := w.size_number_prepend_le (bs ++ [0]) bs.length
  rw [List.length_append, List.length_singleton] at h
  exact h

theorem size_words_le (w : Writer) (ws : List UInt32) : (w.words ws).size ≤ w.size + 4 * ws.length + 7 := by
  have h := w.size_number_prepend_le (ws.flatMap fun v => LittleEndian.encode 4 v.toNat) ws.length
  rw [length_flatMap_encode] at h
  exact h

theorem size_references_le (w : Writer) (offsets : List Nat) :
    (w.references offsets).size ≤ w.size + 4 * offsets.length + 7 := by
  have haligned := w.size_align_words offsets.length
  have halign := w.size_align_four_le (4 * offsets.length)
  have hrow := (row_foldr _ offsets haligned).size
  rw [references, size_number_of_aligned _ (by rw [hrow]; omega), hrow]
  omega

end Writer

end NetPack.Buffer
