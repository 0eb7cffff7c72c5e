import NetPack.Buffer.Object
import NetPack.Bytes.LittleEndian

/-!
# Writing a buffer

A buffer grows at its front. An object, once written, is known by its offset: the number of bytes from
where it starts to the end of the buffer, which no later write changes. Alignment is counted from
the end as well, and becomes alignment from the start when the finished buffer has a length that is a
multiple of the greatest alignment.

A table starts with the distance to its vtable, which says where in the table each slot stands. A
vtable that equals one written before is not written again.
-/

namespace NetPack.Buffer

/-- A buffer in the making. -/
structure Writer where
  bytes : List UInt8
  size : Nat
  /-- The vtables written so far with their offsets. -/
  vtables : List (List Nat × Nat)
  size_eq : size = bytes.length := by simp

namespace Writer

def empty : Writer :=
  { bytes := [], size := 0, vtables := [] }

/-- Puts bytes in front. -/
def prepend (w : Writer) (bs : List UInt8) : Writer :=
  { w with
    bytes := bs ++ w.bytes
    size := bs.length + w.size
    size_eq := by simp [w.size_eq] }

/-- The number of zeros that bring a size to a multiple of an alignment. -/
def gap (size alignment : Nat) : Nat :=
  (alignment - size % alignment) % alignment

/-- Puts zeros in front, so that the buffer is aligned when so many more bytes are written. -/
def align (w : Writer) (length alignment : Nat) : Writer :=
  w.prepend (List.replicate (gap (w.size + length) alignment) 0)

/-- Puts a number of a width in front, aligned to the width. -/
def number (w : Writer) (width n : Nat) : Writer :=
  (w.align width width).prepend (LittleEndian.encode width n)

/-- Puts a reference to an object in front: its distance from the reference. -/
def reference (w : Writer) (offset : Nat) : Writer :=
  let w := w.align 4 4
  w.prepend (LittleEndian.encode 4 (w.size + 4 - offset))

/-- Writes a text, which is followed by a zero byte that its length does not count. -/
def text (w : Writer) (bs : List UInt8) : Writer :=
  ((w.align (bs.length + 1) 4).prepend (bs ++ [0])).number 4 bs.length

/-- Writes a vector of words. -/
def words (w : Writer) (ws : List UInt32) : Writer :=
  ((w.align (4 * ws.length) 4).prepend (ws.flatMap fun v => LittleEndian.encode 4 v.toNat)).number 4
    ws.length

/-- Writes a vector of references, the last one first. -/
def references (w : Writer) (offsets : List Nat) : Writer :=
  (offsets.foldr (fun o w => w.reference o) (w.align (4 * offsets.length) 4)).number 4
    offsets.length

/-- What a slot holds once the objects of the table are written. -/
inductive Cell
  | byte (value : UInt8)
  | word (value : UInt32)
  | reference (offset : Nat)
deriving DecidableEq

/-- Puts what a slot holds in front. -/
def cell (w : Writer) : Cell → Writer
  | .byte v => w.number 1 v.toNat
  | .word v => w.number 4 v.toNat
  | .reference o => w.reference o

/-- Puts the cells of a table in front, one after the other, and gives the offset of each slot. -/
def cells (w : Writer) : List (Nat × Cell) → Writer × List (Nat × Nat)
  | [] => (w, [])
  | (slot, c) :: r =>
    let w := w.cell c
    let (final, placed) := w.cells r
    (final, (slot, w.size) :: placed)

/-- The length of a vtable in bytes: two lengths and one entry for each slot up to the highest. -/
def vtableLength (placed : List (Nat × Nat)) : Nat :=
  4 + 2 * (placed.map fun p => p.1 + 1).foldl max 0

/-- The vtable of a table that ends at the offset `start` and begins at `offset`: its own length, the
length of the table, and the place of each slot in the table, zero if it is not there. -/
def vtable (placed : List (Nat × Nat)) (start offset : Nat) : List Nat :=
  let slots := (vtableLength placed - 4) / 2
  vtableLength placed :: (offset - start) ::
    (List.range slots).map fun s =>
      match placed.lookup s with
      | some o => offset - o
      | none => 0

/-- The bytes of a distance that may be negative. -/
def distance (d : Int) : List UInt8 :=
  LittleEndian.encode 4 (d % 0x100000000).toNat

/-- Writes a table of cells in the order of their slots, and gives its offset. -/
def table (w : Writer) (cs : List (Nat × Cell)) : Writer × Nat :=
  let start := w.size
  let (w, placed) := w.cells (cs.mergeSort fun a b => a.1 ≤ b.1)
  let w := w.align 4 4
  let offset := w.size + 4
  let vt := vtable placed start offset
  match w.vtables.lookup vt with
  | some o => (w.prepend (distance (o - offset)), offset)
  | none =>
    let bs := vt.flatMap fun n => LittleEndian.encode 2 n
    let w := (w.prepend (distance bs.length)).prepend bs
    ({ w with vtables := (vt, w.size) :: w.vtables }, offset)

/-- The finished bytes: a reference to the root object in front of all others. -/
def finish (w : Writer) (root : Nat) : List UInt8 :=
  (w.reference root).bytes

end Writer

mutual

/-- Writes an object behind everything that it refers to, and gives its offset. -/
def Object.write (w : Writer) : Object → Writer × Nat
  | .text bs => let w := w.text bs; (w, w.size)
  | .words ws => let w := w.words ws; (w, w.size)
  | .table fs => let (w, cs) := fs.write w; w.table cs
  | .tables os =>
    let (w, offsets) := os.write w
    let w := w.references offsets
    (w, w.size)

/-- Writes the objects in a table's fields. -/
def Fields.write (w : Writer) : Fields → Writer × List (Nat × Writer.Cell)
  | .nil => (w, [])
  | .byte slot v r =>
    let (w, cs) := r.write w
    (w, (slot, .byte v) :: cs)
  | .word slot v r =>
    let (w, cs) := r.write w
    (w, (slot, .word v) :: cs)
  | .child slot o r =>
    let (w, offset) := o.write w
    let (w, cs) := r.write w
    (w, (slot, .reference offset) :: cs)

/-- Writes objects one after the other. -/
def Objects.write (w : Writer) : Objects → Writer × List Nat
  | .nil => (w, [])
  | .cons o r =>
    let (w, offset) := o.write w
    let (w, offsets) := r.write w
    (w, offset :: offsets)

end

/-- The buffer with an object as its root. -/
def Object.toBytes (o : Object) : List UInt8 :=
  let (w, offset) := o.write .empty
  w.finish offset

end NetPack.Buffer
