import NetPack.Proofs.Buffer.TableWriter
import NetPack.Proofs.Matching

/-!
# What the write of an object leaves in a buffer

An object that was written stands at its offset (`Stands`): every larger buffer holds it there in good
order, whatever was put in front of it since. That the write of an object makes it stand, and keeps
the writer sound, is an induction over the object (`Object.written`), with one lemma for each of the
four shapes. It asks for tables whose slots are distinct and few (`Object.Fits`), since a vtable has
two bytes for each number. A bound on how much is written is read off the object
(`Object.length_toBytes_le`).
-/

namespace NetPack.Buffer

open Writer (Cell Sound Placed Tabled cellsRoom cellsRoom_cons sizeLimit slotLimit)

/-! ## Objects that fit -/

mutual

/-- The slots of every table in an object are distinct and few. -/
def Object.Fits : Object → Prop
  | .text _ => True
  | .words _ => True
  | .table fs => (fs.toList.map (·.1)).Nodup ∧ (∀ s ∈ fs.toList.map (·.1), s < slotLimit) ∧ fs.Fit
  | .tables os => os.Fit

def Fields.Fit : Fields → Prop
  | .nil => True
  | .byte _ _ r => r.Fit
  | .word _ _ r => r.Fit
  | .child _ o r => o.Fits ∧ r.Fit

def Objects.Fit : Objects → Prop
  | .nil => True
  | .cons o r => o.Fits ∧ r.Fit

end

/-! ## Objects that stand -/

/-- The object stands in the buffer, `offset` bytes before its end: every larger buffer holds it there
in good order. -/
structure Stands (w : Writer) (offset : Nat) (o : Object) : Prop where
  offset_le : offset ≤ w.size
  lays : ∀ (buffer : List UInt8), w.bytes <:+ buffer → buffer.length < sizeLimit →
    ∀ origin, (origin + buffer.length) % 4 = 0 →
      Lays origin buffer.toArray (buffer.length - offset) o

theorem Stands.of_suffix {w w' : Writer} {offset : Nat} {o : Object} (h : Stands w offset o)
    (hs : w.bytes <:+ w'.bytes) : Stands w' offset o where
  offset_le := by
    have hle := h.offset_le
    have hlen := hs.length_le
    rw [← w.size_eq, ← w'.size_eq] at hlen
    omega
  lays buffer hb := h.lays buffer (hs.trans hb)

theorem stands_text {w w' : Writer} {bs : List UInt8}
    (h : w.Fronted w' (LittleEndian.encode 4 bs.length ++ (bs ++ [0]))) :
    Stands w' w'.size (.text bs) := by
  refine ⟨Nat.le_refl _, ?_⟩
  intro buffer hb hlim origin ho
  have hh := h.holds.of_suffix hb
  have hle := hh.le_length
  have hlen := hh.length_le
  simp only [List.length_append, LittleEndian.length_encode, List.length_singleton] at hlen
  have ha := h.aligned
  have hp : buffer.length - w'.size + w'.size = buffer.length := by omega
  generalize buffer.length - w'.size = p at hp
  simp only [sizeLimit] at hlim
  have hn : Image.numberAt buffer.toArray 4 p = bs.length :=
    hh.append_left.numberAt (show _ < 0x100000000 by omega) hp
  have hbytes : Holds buffer (w'.size - 4) (bs ++ [0]) := hh.append_right
  have hp4 : p + 4 + (w'.size - 4) = buffer.length := by omega
  refine .text ⟨by omega, ?_, ?_⟩ ?_
  · rw [hn, List.size_toArray]
    omega
  · have hz : (bs ++ [0])[bs.length]? = some 0 := by simp
    rw [hn]
    exact hbytes.byteAt hz hp4
  · have htext := hh
    rw [← List.append_assoc] at htext
    exact htext.append_left.text (by omega) hp

theorem stands_words {w w' : Writer} {ws : List UInt32}
    (h : w.Fronted w'
      (LittleEndian.encode 4 ws.length ++ ws.flatMap fun v => LittleEndian.encode 4 v.toNat)) :
    Stands w' w'.size (.words ws) := by
  refine ⟨Nat.le_refl _, ?_⟩
  intro buffer hb hlim origin ho
  have hh := h.holds.of_suffix hb
  have hle := hh.le_length
  have hlen := hh.length_le
  simp only [List.length_append, LittleEndian.length_encode, Writer.length_flatMap_encode] at hlen
  have ha := h.aligned
  have hp : buffer.length - w'.size + w'.size = buffer.length := by omega
  generalize buffer.length - w'.size = p at hp
  simp only [sizeLimit] at hlim
  have hn : Image.numberAt buffer.toArray 4 p = ws.length :=
    hh.append_left.numberAt (show _ < 0x100000000 by omega) hp
  refine .words ⟨by omega, ?_⟩ (hh.words (by omega) hp)
  rw [hn, List.size_toArray]
  omega

theorem stands_tables {w w' : Writer} {os : Objects} {offsets : List Nat}
    (h : w.Listed w' offsets) (hos : List.Forall₂ (fun o offset => Stands w offset o) os.toList offsets) :
    Stands w' w'.size (.tables os) := by
  refine ⟨Nat.le_refl _, ?_⟩
  intro buffer hb hlim origin ho
  have hle := h.le_size
  have ha := h.aligned
  have hlen := hb.length_le
  rw [← w'.size_eq] at hlen
  have hp : buffer.length - w'.size + w'.size = buffer.length := by omega
  generalize buffer.length - w'.size = p at hp
  have hn := h.numberAt_eq hb hlim hp
  have hel : ∀ k o, os.toList[k]? = some o → ∃ offset, Stands w offset o ∧
      4 * k + offset + 4 < w'.size ∧
      Image.numberAt buffer.toArray 4 (p + 4 + 4 * k) = w'.size - (4 + 4 * k) - offset := by
    intro k o hk
    obtain ⟨offset, hoff, hst⟩ := forall₂_getElem? hos hk
    have hk' := (List.getElem?_eq_some_iff.mp hoff).1
    have hle' := hst.offset_le
    exact ⟨offset, hst, by omega, h.numberAt_element hb hlim hp hoff⟩
  refine .tables ⟨by omega, ?_⟩ (hn.trans hos.length_eq.symm) ?_ ?_
  · rw [hn, List.size_toArray]
    omega
  · intro e he
    obtain ⟨k, hk, rfl⟩ := List.mem_map.mp he
    rw [List.mem_range, hn, ← hos.length_eq] at hk
    obtain ⟨offset, -, hlt, hnum⟩ := hel k _ (List.getElem?_eq_getElem hk)
    rw [hnum]
    omega
  · intro k o hk
    obtain ⟨offset, hst, hlt, hnum⟩ := hel k o hk
    have hf : Image.follow buffer.toArray (p + 4 + 4 * k) = buffer.length - offset := by
      rw [Image.follow, hnum]
      omega
    rw [hf]
    exact hst.lays buffer ((h.suffix).trans hb) hlim origin ho

/-- The cell of an entry whose object, if it is one, stands in the buffer. -/
inductive CellOf (w : Writer) : Entry → Cell → Prop
  | byte (v : UInt8) : CellOf w (.byte v) (.byte v)
  | word (v : UInt32) : CellOf w (.word v) (.word v)
  | child {o : Object} {offset : Nat} (stands : Stands w offset o) :
      CellOf w (.child o) (.reference offset)

theorem CellOf.width_eq {w : Writer} {e : Entry} {c : Cell} (h : CellOf w e c) :
    c.width = e.width := by
  cases h <;> rfl

/-- The cells of a table's fields, slot by slot. -/
def CellsOf (w : Writer) (fs : List (Nat × Entry)) (cs : List (Nat × Cell)) : Prop :=
  List.Forall₂ (fun f c => f.1 = c.1 ∧ CellOf w f.2 c.2) fs cs

theorem CellsOf.slots_eq {w : Writer} {fs : List (Nat × Entry)} {cs : List (Nat × Cell)}
    (h : CellsOf w fs cs) : cs.map (·.1) = fs.map (·.1) := by
  induction h with
  | nil => rfl
  | cons hc _ ih => simp [ih, hc.1]

theorem CellsOf.lookup {w : Writer} {fs : List (Nat × Entry)} {cs : List (Nat × Cell)}
    (h : CellsOf w fs cs) (s : Nat) :
    (fs.lookup s = none ∧ cs.lookup s = none) ∨
      ∃ e c, fs.lookup s = some e ∧ cs.lookup s = some c ∧ CellOf w e c := by
  induction h with
  | nil => exact .inl ⟨rfl, rfl⟩
  | @cons f c _ _ hc _ ih =>
    obtain ⟨s', e⟩ := f
    obtain ⟨t, c⟩ := c
    obtain ⟨ht, hc⟩ := hc
    obtain rfl : s' = t := ht
    rw [lookup_cons_eq_ite, lookup_cons_eq_ite]
    by_cases hs : s' = s
    · rw [if_pos hs, if_pos hs]
      exact .inr ⟨e, c, rfl, rfl, hc⟩
    · rw [if_neg hs, if_neg hs]
      exact ih

/-- An entry is read from the bytes of its cell. -/
theorem CellOf.at {w : Writer} {e : Entry} {c : Cell} (h : CellOf w e c) {buffer : List UInt8}
    {q i : Nat} (hh : Holds buffer q (c.bytes q)) (hq : w.size + c.width ≤ q)
    (hi : i + q = buffer.length) (hb : buffer.length < sizeLimit) : e.At buffer.toArray i := by
  simp only [sizeLimit] at hb
  cases h with
  | byte v =>
    have hv : UInt8.ofNat v.toNat = v := UInt8.ofNat_toNat
    have hbyte : (Cell.bytes q (.byte v))[0]? = some v := by
      simp [Cell.bytes, LittleEndian.encode, hv]
    exact hh.byteAt hbyte hi
  | word v => exact hh.numberAt v.toNat_lt hi
  | @child o offset stands =>
    have hle := stands.offset_le
    have hn := hh.numberAt (show q - offset < 0x100000000 by omega) hi
    simp only [Cell.width] at hq
    simp only [Entry.At, hn]
    omega

/-- The reference of a child leads to where the child stands. -/
theorem Stands.follow_eq {w : Writer} {offset : Nat} {o : Object} (h : Stands w offset o)
    {buffer : List UInt8} {q i : Nat} (hh : Holds buffer q (Cell.bytes q (.reference offset)))
    (hq : w.size + 4 ≤ q) (hi : i + q = buffer.length) (hb : buffer.length < sizeLimit) :
    Image.follow buffer.toArray i = buffer.length - offset :=
  Writer.follow_reference h.offset_le hh hq hi hb

theorem stands_table {w : Writer} {fs : Fields} {cs : List (Nat × Cell)} (hw : w.Sound)
    (hcs : CellsOf w fs.toList cs) (hnodup : (fs.toList.map (·.1)).Nodup)
    (hslots : ∀ s ∈ fs.toList.map (·.1), s < slotLimit) :
    Stands (w.table cs).1 (w.table cs).2 (.table fs) := by
  obtain ⟨hsuf, -, placed, vtableOffset, ht⟩ := w.tabled_table cs hw
  refine ⟨?_, ?_⟩
  · rw [Writer.size_eq]
    exact ht.distance.le_length
  intro buffer hbuf hb origin ho
  replace ht := ht.of_suffix hbuf
  have hoff := ht.distance.le_length
  have hp : buffer.length - (w.table cs).2 + (w.table cs).2 = buffer.length := by omega
  generalize buffer.length - (w.table cs).2 = p at hp
  generalize (w.table cs).2 = offset at ht hoff hp
  have hmap : (cs.map (·.1)).Nodup := by rwa [hcs.slots_eq]
  have hfew : ∀ s ∈ cs.map (·.1), s < slotLimit := by rwa [hcs.slots_eq]
  have hs := Writer.slot_lt_of_mem_inOrder hfew
  have hc := Writer.length_inOrder_le hmap hfew
  have hlookup := Writer.lookup_inOrder hmap
  have hlen := ht.length_eq hp hb hs hc
  have hfield : ∀ s e, fs.entry? s = some e → ∃ q c, placed.lookup s = some q ∧
      (Writer.inOrder cs).lookup s = some c ∧ CellOf w e c ∧
      Table.slot? ⟨buffer.toArray, p⟩ s = some (buffer.length - q) ∧ w.size + c.width ≤ q ∧
      q + 4 ≤ offset ∧ q % c.width = 0 ∧ Holds buffer q (c.bytes q) := by
    intro s e he
    rw [Fields.entry?_eq_lookup] at he
    rcases hcs.lookup s with ⟨hnone, -⟩ | ⟨e', c, he', hcell, hco⟩
    · rw [hnone] at he
      cases he
    · rw [he'] at he
      cases he
      rw [← hlookup] at hcell
      obtain ⟨q, hq, hslot, hrest⟩ := ht.exists_cell hp hb hs hc hcell
      exact ⟨q, c, hq, hcell, hco, hslot, hrest⟩
  have hstart := ht.start_le
  refine .table (ht.framed hp hb hs hc ho) ?_ ?_ ?_ ?_
  · intro s he
    rw [Fields.entry?_eq_lookup] at he
    rcases hcs.lookup s with ⟨-, hnone⟩ | ⟨e, c, he', -, -⟩
    · rw [← hlookup] at hnone
      exact ht.slot?_eq_none hp hb hs hc hnone
    · rw [he'] at he
      cases he
  · intro s e he
    obtain ⟨q, c, -, -, hco, hslot, hle, hbefore, hmod, hh⟩ := hfield s e he
    have hi : buffer.length - q + q = buffer.length := by omega
    refine ⟨buffer.length - q, hslot, ⟨?_, ?_, ?_⟩, hco.at hh hle hi hb⟩
    · rw [hco.width_eq] at hmod
      cases e <;> simp only [Entry.width] at hmod ⊢ <;> omega
    · show p + 4 ≤ _
      omega
    · rw [hlen, ← hco.width_eq]
      show _ ≤ p + _
      omega
  · intro s s' e e' i i' hne he he' hi hi'
    obtain ⟨q, c, hq, hcell, hco, hslot, hle, hbefore, -, -⟩ := hfield s e he
    obtain ⟨q', c', hq', hcell', hco', hslot', hle', hbefore', -, -⟩ := hfield s' e' he'
    rw [hslot, Option.some.injEq] at hi
    rw [hslot', Option.some.injEq] at hi'
    subst hi hi'
    rw [← hco.width_eq, ← hco'.width_eq]
    have := ht.cells.apart hne hcell hcell' hq hq'
    omega
  · intro s o i he hi
    obtain ⟨q, c, -, -, hco, hslot, hle, hbefore, -, hh⟩ := hfield s _ he
    rw [hslot, Option.some.injEq] at hi
    subst hi
    cases hco with
    | child stands =>
      rw [stands.follow_eq hh hle (by omega) hb]
      exact stands.lays buffer (hsuf.trans hbuf) hb origin ho

/-! ## Writing objects -/

/-- What a write that gives a result does to a buffer, where the result is right in the new one. -/
structure Written {α : Type} (w : Writer) (r : Writer × α) (P : Writer → α → Prop) : Prop where
  suffix : w.bytes <:+ r.1.bytes
  sound : r.1.Sound
  result : P r.1 r.2

mutual

/-- Every object that fits stands in the buffer once it is written. -/
theorem Object.written (w : Writer) (hw : w.Sound) :
    ∀ o : Object, o.Fits → Written w (o.write w) fun w' offset => Stands w' offset o
  | .text bs, _ => by
    have h := w.fronted_text bs
    exact ⟨h.suffix, hw.of_suffix h.suffix h.vtables, stands_text h⟩
  | .words ws, _ => by
    have h := w.fronted_words ws
    exact ⟨h.suffix, hw.of_suffix h.suffix h.vtables, stands_words h⟩
  | .table fs, hf => by
    obtain ⟨hnodup, hslots, hfit⟩ := hf
    have h := Fields.written w hw fs hfit
    obtain ⟨hsuf, hsound, -⟩ := (fs.write w).1.tabled_table (fs.write w).2 h.sound
    exact ⟨h.suffix.trans hsuf, hsound, stands_table h.sound h.result hnodup hslots⟩
  | .tables os, hf => by
    have h := Objects.written w hw os hf
    have hl := (os.write w).1.listed_references (os.write w).2
    exact ⟨h.suffix.trans hl.suffix, h.sound.of_suffix hl.suffix hl.vtables,
      stands_tables hl h.result⟩

theorem Fields.written (w : Writer) (hw : w.Sound) :
    ∀ fs : Fields, fs.Fit → Written w (fs.write w) fun w' cs => CellsOf w' fs.toList cs
  | .nil, _ => ⟨List.suffix_rfl, hw, .nil⟩
  | .byte s v r, hf => by
    have h := Fields.written w hw r hf
    exact ⟨h.suffix, h.sound, .cons ⟨rfl, .byte v⟩ h.result⟩
  | .word s v r, hf => by
    have h := Fields.written w hw r hf
    exact ⟨h.suffix, h.sound, .cons ⟨rfl, .word v⟩ h.result⟩
  | .child s o r, hf => by
    have ho := Object.written w hw o hf.1
    have h := Fields.written (o.write w).1 ho.sound r hf.2
    exact ⟨ho.suffix.trans h.suffix, h.sound,
      .cons ⟨rfl, .child (ho.result.of_suffix h.suffix)⟩ h.result⟩

theorem Objects.written (w : Writer) (hw : w.Sound) :
    ∀ os : Objects, os.Fit → Written w (os.write w) fun w' offsets =>
      List.Forall₂ (fun o offset => Stands w' offset o) os.toList offsets
  | .nil, _ => ⟨List.suffix_rfl, hw, .nil⟩
  | .cons o r, hf => by
    have ho := Object.written w hw o hf.1
    have h := Objects.written (o.write w).1 ho.sound r hf.2
    exact ⟨ho.suffix.trans h.suffix, h.sound, .cons (ho.result.of_suffix h.suffix) h.result⟩

end

/-- A finished buffer holds its root object where the reference at its front leads, in good order. -/
theorem Object.lays_toBytes {o : Object} (ho : o.Fits) (hb : o.toBytes.length < sizeLimit) :
    o.toBytes.length % 4 = 0 ∧ 0 < Image.numberAt o.toBytes.toArray 4 0 ∧
      Lays 0 o.toBytes.toArray (Image.follow o.toBytes.toArray 0) o := by
  have hw := Object.written .empty Sound.empty o ho
  have hp := (o.write .empty).1.put_cell (.reference (o.write .empty).2)
  have hbytes : ((o.write .empty).1.cell (.reference (o.write .empty).2)).bytes = o.toBytes := rfl
  have hsize := ((o.write .empty).1.cell (.reference (o.write .empty).2)).size_eq
  have hle := hw.result.offset_le
  have hput := hp.le_size
  have hal := hp.aligned
  have hh := hp.holds
  rw [hbytes] at hsize hh
  simp only [Cell.width] at hput hal
  rw [hsize] at hput hal hh
  have hi : 0 + o.toBytes.length = o.toBytes.length := by omega
  have hf := hw.result.follow_eq hh hput hi hb
  have hpos := CellOf.at (.child hw.result) hh hput hi hb
  refine ⟨hal, hpos, ?_⟩
  rw [hf]
  refine hw.result.lays o.toBytes ?_ hb 0 (by omega)
  rw [← hbytes]
  exact hp.suffix

/-! ## How much is written -/

mutual

/-- The bytes that an object adds to a buffer at most. -/
def Object.room : Object → Nat
  | .text bs => bs.length + 8
  | .words ws => 4 * ws.length + 7
  | .table fs => fs.room + 11
  | .tables os => os.room + 7

/-- The same for the fields of a table, with the objects in them. -/
def Fields.room : Fields → Nat
  | .nil => 0
  | .byte slot _ r => 2 * slot + 9 + r.room
  | .word slot _ r => 2 * slot + 9 + r.room
  | .child slot o r => o.room + (2 * slot + 9) + r.room

/-- The same for the objects of a vector, with the references to them. -/
def Objects.room : Objects → Nat
  | .nil => 0
  | .cons o r => o.room + 4 + r.room

end

mutual

/-- What is written is never more than the room for it, whatever stands in the buffer. -/
theorem Object.size_write_le : ∀ (o : Object) (w : Writer), (o.write w).1.size ≤ w.size + o.room
  | .text bs, w => w.size_text_le bs
  | .words ws, w => w.size_words_le ws
  | .table fs, w => by
    have hfields := fs.size_write_le w
    have htable := (fs.write w).1.size_table_le (fs.write w).2
    rw [Object.room]
    exact Nat.le_trans htable (by omega)
  | .tables os, w => by
    have hitems := os.size_write_le w
    have hreferences := (os.write w).1.size_references_le (os.write w).2
    rw [Object.room]
    exact Nat.le_trans hreferences (by omega)

theorem Fields.size_write_le : ∀ (fs : Fields) (w : Writer),
    (fs.write w).1.size + cellsRoom (fs.write w).2 ≤ w.size + fs.room
  | .nil, _ => Nat.le_refl _
  | .byte slot v r, w => by
    have hrest := r.size_write_le w
    simp only [Fields.write, Fields.room, cellsRoom_cons]
    omega
  | .word slot v r, w => by
    have hrest := r.size_write_le w
    simp only [Fields.write, Fields.room, cellsRoom_cons]
    omega
  | .child slot o r, w => by
    have hobject := o.size_write_le w
    have hrest := r.size_write_le (o.write w).1
    simp only [Fields.write, Fields.room, cellsRoom_cons]
    omega

theorem Objects.size_write_le : ∀ (os : Objects) (w : Writer),
    (os.write w).1.size + 4 * (os.write w).2.length ≤ w.size + os.room
  | .nil, _ => Nat.le_refl _
  | .cons o r, w => by
    have hobject := o.size_write_le w
    have hrest := r.size_write_le (o.write w).1
    simp only [Objects.write, Objects.room, List.length_cons]
    omega

end

/-- The bytes of an object are never more than its room and a reference in front. -/
theorem Object.length_toBytes_le (o : Object) : o.toBytes.length ≤ o.room + 7 := by
  have hobject := o.size_write_le .empty
  have hroot := ((o.write .empty).1.put_cell (.reference (o.write .empty).2)).size_le
  have hempty : Writer.empty.size = 0 := rfl
  rw [Writer.size_eq] at hroot
  show ((o.write .empty).1.cell (.reference (o.write .empty).2)).bytes.length ≤ _
  omega

end NetPack.Buffer
