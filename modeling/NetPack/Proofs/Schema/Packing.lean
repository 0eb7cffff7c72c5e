import NetPack.Proofs.Schema.RoundTrip
import NetPack.Proofs.Schema.Writes

/-!
# Packing appends

The writes that pack a network are listed in `Network.writes`: an object comes behind all that it refers to
(`Object.writeAll_writes`). In every state that is reached on the way, whatever is written next, by the packing or
not, is read as it was written, and leaves all that was written before as it was (`Network.writes_appended`).
-/

namespace NetPack

open Schema
open Buffer (CellsOf Entry Image Writer)
open Buffer.Writer (Cell Sound sizeLimit slotLimit)

/-! ## The writes of an object -/

mutual

/-- The writes of an object, one for each object in it, itself the last. -/
def Buffer.Object.writes (w : Writer) : Buffer.Object → List Write
  | .text bs => [.text bs]
  | .words vs => [.words vs]
  | .table fs => fs.writes w ++ [.table (.always (fs.write w).2)]
  | .tables os => os.writes w ++ [.references (os.write w).2]

/-- The writes of the objects in a table's fields. -/
def Buffer.Fields.writes (w : Writer) : Buffer.Fields → List Write
  | .nil => []
  | .byte _ _ r => r.writes w
  | .word _ _ r => r.writes w
  | .child _ o r => o.writes w ++ r.writes (o.write w).1

/-- The writes of objects one after the other. -/
def Buffer.Objects.writes (w : Writer) : Buffer.Objects → List Write
  | .nil => []
  | .cons o r => o.writes w ++ r.writes (o.write w).1

end

mutual

/-- The last write of an object gives what the write of the object gives. -/
theorem Buffer.Object.exists_last (w : Writer) : ∀ o : Buffer.Object,
    ∃ cs d, o.writes w = cs ++ [d] ∧ d.apply (writeAll w cs).1 = o.write w
  | .text bs => ⟨[], .text bs, rfl, rfl⟩
  | .words vs => ⟨[], .words vs, rfl, rfl⟩
  | .table fs => by
    refine ⟨_, _, rfl, ?_⟩
    rw [Buffer.Fields.writeAll_writes w fs, Write.apply, Pushes.cells_always]
    rfl
  | .tables os => by
    refine ⟨_, _, rfl, ?_⟩
    rw [Buffer.Objects.writeAll_writes w os]
    rfl

theorem Buffer.Fields.writeAll_writes (w : Writer) : ∀ fs : Buffer.Fields,
    (writeAll w (fs.writes w)).1 = (fs.write w).1
  | .nil => rfl
  | .byte _ _ r => Buffer.Fields.writeAll_writes w r
  | .word _ _ r => Buffer.Fields.writeAll_writes w r
  | .child _ o r => by
    obtain ⟨cs, d, hcs, hd⟩ := Buffer.Object.exists_last w o
    rw [Buffer.Fields.writes, writeAll_append, hcs, writeAll_concat, hd]
    exact Buffer.Fields.writeAll_writes _ r

theorem Buffer.Objects.writeAll_writes (w : Writer) : ∀ os : Buffer.Objects,
    (writeAll w (os.writes w)).1 = (os.write w).1
  | .nil => rfl
  | .cons o r => by
    obtain ⟨cs, d, hcs, hd⟩ := Buffer.Object.exists_last w o
    rw [Buffer.Objects.writes, writeAll_append, hcs, writeAll_concat, hd]
    exact Buffer.Objects.writeAll_writes _ r

end

theorem Buffer.Object.writeAll_writes (w : Writer) (o : Buffer.Object) :
    (writeAll w (o.writes w)).1 = (o.write w).1 ∧
      ∃ d, (writeAll w (o.writes w)).2.getLast? = some (d, (o.write w).2) := by
  obtain ⟨cs, d, hcs, hd⟩ := o.exists_last w
  rw [hcs, writeAll_concat, hd]
  exact ⟨rfl, d, List.getLast?_concat⟩

/-! ## References on the way -/

theorem Buffer.CellsOf.offset_le {w : Writer} {fs : List (Nat × Entry)} {cs : List (Nat × Cell)}
    (h : CellsOf w fs cs) {offset : Nat} (hm : .reference offset ∈ cs.map (·.2)) : offset ≤ w.size := by
  obtain ⟨⟨slot, c⟩, hm, he⟩ := List.mem_map.mp hm
  obtain ⟨⟨s, e⟩, -, -, hc⟩ := exists_of_mem_right h hm
  cases he
  cases hc with
  | child stands => exact stands.offset_le

theorem allowed_always {w : Writer} {fs : List (Nat × Entry)} {cs : List (Nat × Cell)} (h : CellsOf w fs cs)
    (hn : (fs.map (·.1)).Nodup) (hs : ∀ slot ∈ fs.map (·.1), slot < slotLimit) :
    (Write.table (.always cs)).Allowed w := by
  have hslots : (Pushes.always cs).map (·.1) = fs.map (·.1) := by
    rw [← h.slots_eq, Pushes.always, List.map_map]
    rfl
  refine ⟨hslots ▸ hn, hslots ▸ hs, fun offset hm => h.offset_le ?_⟩
  rw [Pushes.always, List.map_map] at hm
  obtain ⟨⟨slot, c⟩, hf, he⟩ := List.mem_map.mp hm
  cases he
  exact List.mem_map.mpr ⟨_, hf, rfl⟩

mutual

/-- The writes of an object refer only to what was written before. -/
theorem Buffer.Object.allAllowed (w : Writer) (hw : w.Sound) :
    ∀ o : Buffer.Object, o.Fits → AllAllowed w (o.writes w)
  | .text _, _ => ⟨trivial, trivial⟩
  | .words _, _ => ⟨trivial, trivial⟩
  | .table fs, ⟨hn, hs, hf⟩ => by
    refine (allAllowed_append w _ _).mpr ⟨Buffer.Fields.allAllowed w hw fs hf, ?_, trivial⟩
    rw [Buffer.Fields.writeAll_writes]
    exact allowed_always (Buffer.Fields.written w hw fs hf).result hn hs
  | .tables os, hf => by
    refine (allAllowed_append w _ _).mpr ⟨Buffer.Objects.allAllowed w hw os hf, ?_, trivial⟩
    rw [Buffer.Objects.writeAll_writes]
    intro offset hm
    obtain ⟨o, -, hst⟩ := exists_of_mem_right (Buffer.Objects.written w hw os hf).result hm
    exact hst.offset_le

theorem Buffer.Fields.allAllowed (w : Writer) (hw : w.Sound) :
    ∀ fs : Buffer.Fields, fs.Fit → AllAllowed w (fs.writes w)
  | .nil, _ => trivial
  | .byte _ _ r, hf => Buffer.Fields.allAllowed w hw r hf
  | .word _ _ r, hf => Buffer.Fields.allAllowed w hw r hf
  | .child _ o r, hf => by
    refine (allAllowed_append w _ _).mpr ⟨Buffer.Object.allAllowed w hw o hf.1, ?_⟩
    rw [(o.writeAll_writes w).1]
    exact Buffer.Fields.allAllowed _ (Buffer.Object.written w hw o hf.1).sound r hf.2

theorem Buffer.Objects.allAllowed (w : Writer) (hw : w.Sound) :
    ∀ os : Buffer.Objects, os.Fit → AllAllowed w (os.writes w)
  | .nil, _ => trivial
  | .cons o r, hf => by
    refine (allAllowed_append w _ _).mpr ⟨Buffer.Object.allAllowed w hw o hf.1, ?_⟩
    rw [(o.writeAll_writes w).1]
    exact Buffer.Objects.allAllowed _ (Buffer.Object.written w hw o hf.1).sound r hf.2

end

/-! ## The writes of a network -/

namespace Network

/-- The writes that pack a network. -/
def writes (n : Network) : List Write :=
  n.toObject.writes .empty

theorem allAllowed_writes (n : Network) : AllAllowed .empty n.writes :=
  n.toObject.allAllowed .empty Sound.empty n.fits_toObject

/-- The packed network is what its writes give, with a reference to the last of them in front. -/
theorem toBytes_eq_writeAll (n : Network) :
    ∃ d root, (writeAll .empty n.writes).2.getLast? = some (d, root) ∧
      n.toBytes = (writeAll .empty n.writes).1.finish root := by
  obtain ⟨hw, d, hd⟩ := n.toObject.writeAll_writes .empty
  refine ⟨d, _, hd, ?_⟩
  rw [writes, hw]
  rfl

/-- In a state that is reached when a network is packed, whatever is written next is read as it was written, though
a vector is pushed back to front. Every object that was written before is read as it was written, before and after,
and cannot be told from what it was. The storage of the buffer may have any bytes in front of it, others before
than after. References must be able to span the buffer. -/
theorem writes_appended (n : Network) {before : List Write} (hb : before <+: n.writes) (c : Write)
    (hc : c.Allowed (writeAll .empty before).1) (hs : (c.apply (writeAll .empty before).1).1.size < sizeLimit) :
    (∃ d root, (writeAll .empty n.writes).2.getLast? = some (d, root) ∧
      n.toBytes = (writeAll .empty n.writes).1.finish root) ∧
    let w := (writeAll .empty before).1
    let w' := (c.apply w).1
    (∀ ws, c.vector? = some ws → w' = w.pushWords ws) ∧
    ∀ spare spare' : Image,
      c.ReadAt (spare' ++ w'.bytes.toArray) (c.apply w).2 ∧
      ∀ d offset, (d, offset) ∈ (writeAll .empty before).2 →
        d.ReadAt (spare ++ w.bytes.toArray) offset ∧ d.ReadAt (spare' ++ w'.bytes.toArray) offset ∧
          d.SameAt (spare ++ w.bytes.toArray) (spare' ++ w'.bytes.toArray) offset := by
  refine ⟨n.toBytes_eq_writeAll, fun ws hws => c.apply_vector hws, fun spare spare' => ?_⟩
  obtain ⟨rest, hrest⟩ := hb
  have hall := n.allAllowed_writes
  rw [← hrest] at hall
  have hbefore := written_all Sound.empty ((allAllowed_append _ _ _).mp hall).1
  have hnext := Write.written hbefore.sound hc
  have hsize := hnext.suffix.length_le
  rw [← Writer.size_eq, ← Writer.size_eq] at hsize
  obtain ⟨more, hmore⟩ := hnext.suffix
  have hgrown : spare' ++ (c.apply (writeAll .empty before).1).1.bytes.toArray
      = spare' ++ more.toArray ++ (writeAll .empty before).1.bytes.toArray := by
    rw [← hmore, ← List.append_toArray, Array.append_assoc]
  refine ⟨(hnext.result hs).grown spare', fun d offset hm => ?_⟩
  have hd := hbefore.result (Nat.lt_of_le_of_lt hsize hs) d offset hm
  rw [hgrown]
  exact ⟨hd.grown spare, hd.grown (spare' ++ more.toArray), hd.sameAt spare (spare' ++ more.toArray)⟩

end Network

/-- Two nodes without operators. -/
def twoValues : Network where
  nodes := [.value "in", .value "out"]
  inputs := [0]
  outputs := [1]

/-- The first node of it, and the data and the name of the second. -/
def twoValuesPart : List Write :=
  twoValues.writes.take 5

/-- The table of the second node, with one more number that is left out. -/
def secondNode : Write :=
  .table [
    (Slot.Node.name, .always (.reference 60)),
    (Slot.Node.dataType, .byte NodeTable.value.byte),
    (Slot.Node.data, .always (.reference 48)),
    (3, .word 0)]

theorem apply_nil (w : Writer) : (Write.table []).apply w = w.tableInOrder [] :=
  w.table_eq_tableInOrder (List.Perm.refl []) List.Pairwise.nil

/-- The pushes of the table of a value, as a network is packed. -/
def valuePushes (name data : Nat) : Pushes :=
  [(Slot.Node.dataType, .always (.byte NodeTable.value.byte)),
    (Slot.Node.data, .always (.reference data)),
    (Slot.Node.name, .always (.reference name))]

/-- The cells of the table, in the order of their slots. -/
def valueCells (name data : Nat) : List (Nat × Cell) :=
  [(Slot.Node.name, .reference name), (Slot.Node.dataType, .byte NodeTable.value.byte),
    (Slot.Node.data, .reference data)]

theorem apply_of_valueCells (w : Writer) {fields : Pushes} {name data : Nat}
    (h : (valueCells name data).Perm (fields.cells w)) :
    (Write.table fields).apply w = w.tableInOrder (valueCells name data) :=
  w.table_eq_tableInOrder h (show [0, 1, 2].Pairwise (· < ·) by decide)

theorem apply_valuePushes (w : Writer) (name data : Nat) :
    (Write.table (valuePushes name data)).apply w = w.tableInOrder (valueCells name data) :=
  apply_of_valueCells w (List.perm_append_singleton (Slot.Node.name, Cell.reference name)
    [(Slot.Node.dataType, .byte NodeTable.value.byte), (Slot.Node.data, .reference data)]).symm

/-- The buffer in which the second node is written. -/
def twoValuesWriter : Writer :=
  let w := (Writer.empty.tableInOrder []).1.text [105, 110]
  let w := (w.tableInOrder (valueCells 16 4)).1
  (w.tableInOrder []).1.text [111, 117, 116]

theorem twoValuesPart_eq : twoValuesPart =
    [.table [], .text [105, 110], .table (valuePushes 16 4), .table [], .text [111, 117, 116]] := by
  have h : twoValuesPart =
      [.table [], .text [105, 110],
        .table (valuePushes (((Write.table []).apply .empty).1.text [105, 110]).size
          ((Write.table []).apply .empty).2),
        .table [], .text [111, 117, 116]] := rfl
  rw [h, apply_nil]
  rfl

theorem writeAll_twoValuesPart : (writeAll .empty twoValuesPart).1 = twoValuesWriter := by
  simp only [twoValuesPart_eq, writeAll, apply_nil, apply_valuePushes]
  rfl

theorem size_twoValuesPart : (writeAll .empty twoValuesPart).1.size = 60 := by
  rw [writeAll_twoValuesPart]
  rfl

theorem allowed_secondNode : secondNode.Allowed (writeAll .empty twoValuesPart).1 := by
  refine ⟨by decide, by decide, fun offset hm => ?_⟩
  have hm : offset = 60 ∨ offset = 48 := by simpa using hm
  rw [size_twoValuesPart]
  omega

theorem apply_secondNode :
    secondNode.apply (writeAll .empty twoValuesPart).1 = twoValuesWriter.tableInOrder (valueCells 60 48) := by
  rw [writeAll_twoValuesPart]
  exact apply_of_valueCells _ (List.Perm.refl (valueCells 60 48))

theorem size_secondNode : (secondNode.apply (writeAll .empty twoValuesPart).1).1.size < sizeLimit := by
  rw [apply_secondNode]
  decide

/-- The second node has the vtable of the first. -/
theorem vtables_secondNode :
    (secondNode.apply (writeAll .empty twoValuesPart).1).1.vtables
      = (writeAll .empty twoValuesPart).1.vtables := by
  rw [apply_secondNode, writeAll_twoValuesPart]
  rfl

theorem twoValues_appended :
    let w := (writeAll .empty twoValuesPart).1
    let w' := (secondNode.apply w).1
    w'.vtables = w.vtables ∧ ∀ spare spare' : Image,
      secondNode.ReadAt (spare' ++ w'.bytes.toArray) (secondNode.apply w).2 ∧
      ∀ d offset, (d, offset) ∈ (writeAll .empty twoValuesPart).2 →
        d.SameAt (spare ++ w.bytes.toArray) (spare' ++ w'.bytes.toArray) offset := by
  obtain ⟨-, -, h⟩ :=
    twoValues.writes_appended (List.take_prefix 5 _) secondNode allowed_secondNode size_secondNode
  exact ⟨vtables_secondNode, fun spare spare' =>
    ⟨(h spare spare').1, fun d offset hm => ((h spare spare').2 d offset hm).2.2⟩⟩

end NetPack
