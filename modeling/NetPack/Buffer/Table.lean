import NetPack.Buffer.Object

/-!
# Reading a buffer

A table of a buffer is a position in it. Its vtable tells where each slot stands; a slot beyond the
end of the vtable, or with a zero entry, is absent. The same questions can be asked of a logical table,
whose slots are given outright (`TableLike`).
-/

namespace NetPack.Buffer

/-- What can be asked of a table: what a slot holds when it is read as a byte, a word, a text, a vector
of words, a table, or a vector of tables. -/
class TableLike (T : Type) where
  byte? : T → Nat → Option UInt8
  word? : T → Nat → Option UInt32
  text? : T → Nat → Option (List UInt8)
  words? : T → Nat → Option (List UInt32)
  table? : T → Nat → Option T
  tables? : T → Nat → Option (List T)

/-! ## Tables in bytes -/

/-- The bytes of a buffer. -/
abbrev Image := Array UInt8

namespace Image

/-- The byte at a position; zero beyond the end. -/
def byteAt (b : Image) (i : Nat) : UInt8 :=
  b.getD i 0

/-- The number of a width at a position. -/
def numberAt (b : Image) : Nat → Nat → Nat
  | 0, _ => 0
  | width + 1, i => (b.byteAt i).toNat + 256 * b.numberAt width (i + 1)

/-- The position that the reference at a position leads to. -/
def follow (b : Image) (i : Nat) : Nat :=
  i + b.numberAt 4 i

/-- The text at a position. -/
def text (b : Image) (i : Nat) : List UInt8 :=
  (List.range (b.numberAt 4 i)).map fun k => b.byteAt (i + 4 + k)

/-- The positions of the elements of the vector at a position. -/
def elements (b : Image) (i : Nat) : List Nat :=
  (List.range (b.numberAt 4 i)).map fun k => i + 4 + 4 * k

def words (b : Image) (i : Nat) : List UInt32 :=
  (b.elements i).map fun e => UInt32.ofNat (b.numberAt 4 e)

end Image

/-- A table of a buffer. -/
structure Table where
  image : Image
  position : Nat

namespace Table

/-- The position of the vtable, which may stand on either side of the table. -/
def vtable (t : Table) : Nat :=
  ((t.position : Int) - Int.bmod (t.image.numberAt 4 t.position) 0x100000000).toNat

/-- The position of a slot, if the table holds it. -/
def slot? (t : Table) (slot : Nat) : Option Nat :=
  let entry := 4 + 2 * slot
  if t.image.numberAt 2 t.vtable < entry + 2 then none
  else
    let place := t.image.numberAt 2 (t.vtable + entry)
    if place = 0 then none else some (t.position + place)

/-- The position that a slot refers to, if the table holds it. -/
def target? (t : Table) (slot : Nat) : Option Nat :=
  (t.slot? slot).map t.image.follow

instance : TableLike Table where
  byte? t slot := (t.slot? slot).map t.image.byteAt
  word? t slot := (t.slot? slot).map fun i => UInt32.ofNat (t.image.numberAt 4 i)
  text? t slot := (t.target? slot).map t.image.text
  words? t slot := (t.target? slot).map t.image.words
  table? t slot := (t.target? slot).map fun i => ⟨t.image, i⟩
  tables? t slot := (t.target? slot).map fun i =>
    (t.image.elements i).map fun e => ⟨t.image, t.image.follow e⟩

/-- The root table of a buffer. -/
def root (b : Image) : Table :=
  ⟨b, b.follow 0⟩

end Table

/-! ## Logical tables -/

namespace Fields

/-- What a logical table holds in a slot. -/
def entry? : Fields → Nat → Option Entry
  | nil, _ => none
  | byte s v r, slot => if s = slot then some (.byte v) else r.entry? slot
  | word s v r, slot => if s = slot then some (.word v) else r.entry? slot
  | child s v r, slot => if s = slot then some (.child v) else r.entry? slot

end Fields

/-- The tables among objects. -/
def Objects.tables : Objects → List Fields
  | .nil => []
  | .cons (.table fs) r => fs :: r.tables
  | .cons _ r => r.tables

instance : TableLike Fields where
  byte? t slot := match t.entry? slot with
    | some (.byte v) => some v
    | _ => none
  word? t slot := match t.entry? slot with
    | some (.word v) => some v
    | _ => none
  text? t slot := match t.entry? slot with
    | some (.child (.text bs)) => some bs
    | _ => none
  words? t slot := match t.entry? slot with
    | some (.child (.words ws)) => some ws
    | _ => none
  table? t slot := match t.entry? slot with
    | some (.child (.table fs)) => some fs
    | _ => none
  tables? t slot := match t.entry? slot with
    | some (.child (.tables os)) => some os.tables
    | _ => none

end NetPack.Buffer
