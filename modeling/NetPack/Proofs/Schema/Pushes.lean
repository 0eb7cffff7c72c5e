import NetPack.Proofs.Buffer.Growth
import NetPack.Proofs.Buffer.ObjectWriter
import NetPack.Proofs.Schema.NetworkContent

/-!
# Pushing the fields of a table

For a slot of a table a cell is pushed, or a number, which is left out if it is the default of its field
(`Push`). A table shows each cell in its slot and nothing in the other slots (`written_table`), so that every
number is read that was pushed, be it put or left out (`Push.readAt_of_shows`).
-/

namespace NetPack.Schema

open Buffer (Fields Holds Image Table TableLike Writer Written)
open Buffer (RowFor lookup_flatten_eq lookup_flatten_eq_none mem_of_lookup)
open Buffer.Writer (Cell inOrder lookup_inOrder sizeLimit slotLimit)

/-! ## What is pushed for a slot -/

/-- What is pushed for a slot of a table: a cell that is always put, or a number that is left out if it is the
default of its field. -/
inductive Push
  | always (cell : Cell)
  | byte (value : UInt8)
  | bool (value : Bool)
  | word (value : UInt32)
  | int (value : Int32)
  | float (value : Single)

/-- The cells that a row of numbers becomes. -/
def rowCells (w : Writer) (r : Row) : List (Nat × Cell) :=
  ((Fields.ofList r).write w).2

/-- The cells of a push. -/
def Push.cells (w : Writer) (slot : Nat) : Push → List (Nat × Cell)
  | always c => [(slot, c)]
  | byte v => rowCells w (byteField slot v)
  | bool v => rowCells w (boolField slot v)
  | word v => rowCells w (wordField slot v)
  | int v => rowCells w (intField slot v)
  | float v => rowCells w (floatField slot v)

/-- The cell that a push leaves in the table, if it leaves one. -/
def Push.cell? : Push → Option Cell
  | always c => some c
  | byte v => if v = 0 then none else some (.byte v)
  | bool v => if v then some (.byte 1) else none
  | word v => if v = 0 then none else some (.word v)
  | int v => if v.toUInt32 = 0 then none else some (.word v.toUInt32)
  | float v => if v.isZero then none else some (.word v.bits)

theorem Push.cells_eq (w : Writer) (slot : Nat) (v : Push) : v.cells w slot = v.cell?.toList.map (slot, ·) := by
  have hbyte (b : UInt8) : rowCells w (byteField slot b) = (byte b).cell?.toList.map (slot, ·) := by
    rw [byteField, cell?]
    split <;> rfl
  have hword (b : UInt32) : rowCells w (wordField slot b) = (word b).cell?.toList.map (slot, ·) := by
    rw [wordField, cell?]
    split <;> rfl
  cases v with
  | always c => rfl
  | byte v => exact hbyte v
  | bool v => cases v <;> exact hbyte _
  | word v => exact hword v
  | int v => exact hword v.toUInt32
  | float v =>
    rw [cells, floatField, cell?]
    split <;> rfl

/-- Only a cell that is always put can be a reference. -/
theorem Push.eq_always_of_reference {v : Push} {offset : Nat} (h : v.cell? = some (.reference offset)) :
    v = always (.reference offset) := by
  cases v with
  | always c =>
    cases h
    rfl
  | _ =>
    rw [cell?] at h
    split at h <;> cases h

/-! ## What is read from a slot -/

/-- A cell is read from a slot, where a reference is told by the offset that it leads to. -/
def CellAt (x : Table) (slot : Nat) : Cell → Prop
  | .byte v => TableLike.byte? x slot = some v
  | .word v => TableLike.word? x slot = some v
  | .reference offset => (TableLike.table? x slot).map Table.offset = some offset

/-- What is read from a slot for which a table was given a cell or none. -/
def SlotShows (x : Table) (slot : Nat) : Option Cell → Prop
  | none => x.answers slot = .absent
  | some c => CellAt x slot c

/-- A slot that a table does not hold is read as the default of its field, be it a number, a list, a text or a
table. -/
structure ReadsDefault (x : Table) (slot : Nat) : Prop where
  absent : x.answers slot = .absent
  byte : byteAt x slot = 0
  bool : boolAt x slot = false
  word : wordAt x slot = 0
  int : intAt x slot = 0
  float : floatAt x slot = .zero
  unsigneds : unsignedsAt? x slot = none
  ints : intsAt? x slot = none
  floats : floatsAt? x slot = none
  text : textAt? x slot = none
  table : TableLike.table? x slot = none
  tables : TableLike.tables? x slot = none

/-- What was pushed is read from a slot, be it put or left out. The zero of a float has no sign. -/
def Push.ReadAt (x : Table) (slot : Nat) : Push → Prop
  | always c => CellAt x slot c
  | byte v => byteAt x slot = v
  | bool v => boolAt x slot = v
  | word v => wordAt x slot = v
  | int v => intAt x slot = v
  | float v => floatAt x slot = v.settled

section Slot

variable {x y : Table} {slot : Nat}

theorem readsDefault_of_absent (h : x.answers slot = .absent) : ReadsDefault x slot := by
  have hbyte : TableLike.byte? x slot = none := congrArg Table.Answers.byte h
  have hword : TableLike.word? x slot = none := congrArg Table.Answers.word h
  have htext : TableLike.text? x slot = none := congrArg Table.Answers.text h
  have hwords : TableLike.words? x slot = none := congrArg Table.Answers.words h
  have htable := Option.map_eq_none_iff.mp (congrArg Table.Answers.target h)
  have htables := Option.map_eq_none_iff.mp (congrArg Table.Answers.tables h)
  have hb : byteAt x slot = 0 := by rw [byteAt, hbyte, Option.getD_none]
  have hw : wordAt x slot = 0 := by rw [wordAt, hword, Option.getD_none]
  exact {
    absent := h
    byte := hb
    bool := by rw [boolAt, hb, bne_self_eq_false]
    word := hw
    int := by rw [intAt, hw]; rfl
    float := by rw [floatAt, hw, Single.zero]
    unsigneds := by rw [unsignedsAt?, hwords]
    ints := by rw [intsAt?, hwords, Option.map_none]
    floats := by rw [floatsAt?, hwords, Option.map_none]
    text := by rw [textAt?, htext, Option.map_none]
    table := htable
    tables := htables }

theorem byteAt_of_shows {v : UInt8} (h : SlotShows x slot (Push.byte v).cell?) : byteAt x slot = v := by
  rw [Push.cell?] at h
  split at h
  · rename_i hv
    rw [(readsDefault_of_absent h).byte, hv]
  · have hsome : TableLike.byte? x slot = some v := h
    rw [byteAt, hsome, Option.getD_some]

theorem wordAt_of_shows {v : UInt32} (h : SlotShows x slot (Push.word v).cell?) : wordAt x slot = v := by
  rw [Push.cell?] at h
  split at h
  · rename_i hv
    rw [(readsDefault_of_absent h).word, hv]
  · have hsome : TableLike.word? x slot = some v := h
    rw [wordAt, hsome, Option.getD_some]

theorem Push.readAt_of_shows {v : Push} (h : SlotShows x slot v.cell?) : v.ReadAt x slot := by
  cases v with
  | always c => exact h
  | byte v => exact byteAt_of_shows h
  | bool v =>
    cases v with
    | false => rw [ReadAt, boolAt, byteAt_of_shows (v := 0) h]; rfl
    | true => rw [ReadAt, boolAt, byteAt_of_shows (v := 1) h]; rfl
  | word v => exact wordAt_of_shows h
  | int v =>
    have hword : wordAt x slot = v.toUInt32 := wordAt_of_shows h
    rw [ReadAt, intAt, hword, Int32.toInt32_toUInt32]
  | float v =>
    rw [ReadAt, Single.settled]
    rw [cell?] at h
    split at h
    · rename_i hz
      rw [if_pos hz, (readsDefault_of_absent h).float]
    · rename_i hz
      have hsome : TableLike.word? x slot = some v.bits := h
      rw [if_neg hz, floatAt, wordAt, hsome, Option.getD_some]

/-- What is read as a push depends on the answers of the table alone. -/
theorem Push.readAt_congr (h : x.answers slot = y.answers slot) (v : Push) :
    v.ReadAt x slot ↔ v.ReadAt y slot := by
  have hbyte : TableLike.byte? x slot = TableLike.byte? y slot := congrArg Table.Answers.byte h
  have hword : TableLike.word? x slot = TableLike.word? y slot := congrArg Table.Answers.word h
  have htarget : (TableLike.table? x slot).map Table.offset = (TableLike.table? y slot).map Table.offset :=
    congrArg Table.Answers.target h
  cases v with
  | always c => cases c <;> simp only [ReadAt, CellAt, hbyte, hword, htarget]
  | _ => simp only [ReadAt, byteAt, boolAt, wordAt, intAt, floatAt, hbyte, hword]

end Slot

/-! ## Cells of a table -/

/-- If the cell is a reference, it is one to what the buffer already has. -/
def RefersBack (w : Writer) (c : Cell) : Prop :=
  ∀ offset, c = .reference offset → offset ≤ w.size

/-- What is pushed for the slots of a table, in any order. -/
abbrev Pushes :=
  List (Nat × Push)

namespace Pushes

variable {w : Writer} {fields : Pushes} {slot : Nat}

/-- The cells of a table for which something is pushed. -/
def cells (w : Writer) (fields : Pushes) : List (Nat × Cell) :=
  fields.flatMap fun f => f.2.cells w f.1

theorem cells_eq (w : Writer) (fields : Pushes) :
    cells w fields = (fields.map fun f => f.2.cell?.toList.map (f.1, ·)).flatten := by
  rw [cells, List.flatMap_def]
  exact congrArg List.flatten (List.map_congr_left fun f _ => f.2.cells_eq w f.1)

/-- Cells that are always put. -/
def always (cs : List (Nat × Cell)) : Pushes :=
  cs.map fun f => (f.1, .always f.2)

theorem cells_always (w : Writer) (cs : List (Nat × Cell)) : cells w (always cs) = cs := by
  induction cs with
  | nil => rfl
  | cons f r ih => exact congrArg (f :: ·) ih

theorem rowsFor (fields : Pushes) :
    List.Forall₂ RowFor (fields.map (·.1)) (fields.map fun f => f.2.cell?.toList.map (f.1, ·)) := by
  rw [List.forall₂_map_left_iff, List.forall₂_map_right_iff, List.forall₂_same]
  intro f _ a ha
  cases hc : f.2.cell? with
  | none =>
    rw [hc] at ha
    cases ha
  | some c =>
    rw [hc] at ha
    obtain rfl := List.mem_singleton.mp ha
    exact ⟨rfl, rfl⟩

theorem sublist_slots (w : Writer) (fields : Pushes) :
    ((cells w fields).map (·.1)).Sublist (fields.map (·.1)) := by
  rw [cells_eq]
  exact Buffer.sublist_slots (rowsFor fields)

theorem mem_cells {c : Cell} (h : (slot, c) ∈ cells w fields) :
    ∃ v, (slot, v) ∈ fields ∧ v.cell? = some c := by
  obtain ⟨⟨s, v⟩, hm, hc⟩ := List.mem_flatMap.mp h
  rw [v.cells_eq, List.mem_map] at hc
  obtain ⟨c', hc', he⟩ := hc
  cases he
  exact ⟨v, hm, Option.mem_toList.mp hc'⟩

theorem refersBack (h : ∀ offset, .always (.reference offset) ∈ fields.map (·.2) → offset ≤ w.size) :
    ∀ c ∈ (cells w fields).map (·.2), RefersBack w c := by
  rintro c hm offset rfl
  obtain ⟨⟨slot, c⟩, hm, he⟩ := List.mem_map.mp hm
  cases he
  obtain ⟨v, hv, hcell⟩ := mem_cells hm
  cases Push.eq_always_of_reference hcell
  exact h offset (List.mem_map.mpr ⟨_, hv, rfl⟩)

theorem lookup_eq_none (h : slot ∉ fields.map (·.1)) : (cells w fields).lookup slot = none := by
  rw [cells_eq]
  exact lookup_flatten_eq_none (rowsFor fields) h

theorem lookup_eq_cell? (hn : (fields.map (·.1)).Nodup) {v : Push} (h : (slot, v) ∈ fields) :
    (cells w fields).lookup slot = v.cell? := by
  obtain ⟨i, hi⟩ := List.mem_iff_getElem?.mp h
  have hslot : (fields.map (·.1))[i]? = some slot := by rw [List.getElem?_map, hi, Option.map_some]
  have hrow : (fields.map fun f => f.2.cell?.toList.map (f.1, ·))[i]? = some (v.cell?.toList.map (slot, ·)) := by
    rw [List.getElem?_map, hi, Option.map_some]
  rw [cells_eq, lookup_flatten_eq (rowsFor fields) hn hslot hrow]
  cases v.cell? with
  | none => rfl
  | some c => exact List.lookup_cons_self

end Pushes

/-! ## Written tables -/

theorem cellAt_of_holds {w : Writer} {c : Cell} (hc : RefersBack w c) {buffer : List UInt8} {p q slot : Nat}
    (hslot : Table.slot? ⟨buffer.toArray, p⟩ slot = some (buffer.length - q)) (hh : Holds buffer q (c.bytes q))
    (hq : w.size + c.width ≤ q) (hb : buffer.length < sizeLimit) : CellAt ⟨buffer.toArray, p⟩ slot c := by
  have hle := hh.le_length
  have hi : buffer.length - q + q = buffer.length := by omega
  cases c with
  | byte v =>
    have hv : Image.byteAt buffer.toArray (buffer.length - q) = v := Buffer.CellOf.at (.byte v) hh hq hi hb
    simp only [CellAt, TableLike.byte?, hslot, Option.map_some, hv]
  | word v =>
    have hv : Image.numberAt buffer.toArray 4 (buffer.length - q) = v.toNat :=
      Buffer.CellOf.at (.word v) hh hq hi hb
    simp only [CellAt, TableLike.word?, hslot, Option.map_some, hv, UInt32.ofNat_toNat]
  | reference offset =>
    have ho := hc offset rfl
    have hf := Buffer.Writer.follow_reference ho hh hq hi hb
    simp only [CellAt, TableLike.table?, Table.target?, hslot, Option.map_some, hf, Table.offset,
      List.size_toArray, Option.some.injEq]
    omega

/-- A table once written shows the cell that each slot was given. -/
theorem written_table {w : Writer} (hw : w.Sound) {cs : List (Nat × Cell)} (hn : (cs.map (·.1)).Nodup)
    (hs : ∀ s ∈ cs.map (·.1), s < slotLimit) (hc : ∀ c ∈ cs.map (·.2), RefersBack w c) :
    Written w (w.table cs) fun w' offset => w'.size < sizeLimit → offset ≤ w'.size ∧
      (Table.ofOffset w'.bytes.toArray offset).VtableInside ∧
      ∀ s, SlotShows (Table.ofOffset w'.bytes.toArray offset) s (cs.lookup s) := by
  obtain ⟨hsuf, hsound, placed, vtableOffset, ht⟩ := w.tabled_table cs hw
  refine ⟨hsuf, hsound, fun hsize => ?_⟩
  generalize (w.table cs).1 = w' at ht hsize
  generalize (w.table cs).2 = offset at ht
  have hoff := ht.distance.le_length
  rw [w'.size_eq] at hsize ⊢
  have hp : w'.bytes.length - offset + offset = w'.bytes.length := by omega
  have hs' := Buffer.Writer.slot_lt_of_mem_inOrder hs
  have hc' := Buffer.Writer.length_inOrder_le hn hs
  refine ⟨hoff, ?_, fun s => ?_⟩
  · have hv := ht.vtable.le_length
    show Int.bmod (Image.numberAt w'.bytes.toArray 4 (w'.bytes.length - offset)) _
      ≤ (w'.bytes.length - offset : Nat)
    rw [ht.bmod_eq hp hsize]
    omega
  · rw [← lookup_inOrder hn]
    cases hl : (inOrder cs).lookup s with
    | none => exact Table.answers_of_slot?_eq_none (ht.slot?_eq_none hp hsize hs' hc' hl)
    | some c =>
      obtain ⟨q, -, hslot, hq, -, -, hh⟩ := ht.exists_cell hp hsize hs' hc' hl
      have hback : RefersBack w c := by
        rw [lookup_inOrder hn] at hl
        exact hc c (List.mem_map_of_mem (mem_of_lookup hl))
      exact cellAt_of_holds hback hslot hh hq hsize

end NetPack.Schema
