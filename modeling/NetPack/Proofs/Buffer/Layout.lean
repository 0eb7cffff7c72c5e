import NetPack.Buffer.Table

/-!
# What it means for an image to hold an object

`Lays origin b p o` says that the image `b` holds the object `o` at the position `p`, and that it does
so in good order: everything lies inside the image and is aligned to its width, a reference leads
strictly forward, a text ends in a zero byte, and the fields of a table neither overlap each other nor
the distance to the vtable. Nothing is said about the order of objects, of fields in a table, or of
vtables, and objects and vtables may be shared.

Alignment is counted from an `origin`, the number of bytes that are to stand in front of the image. So
the relation makes sense for a buffer that is still growing at its front, and it is alignment in the
image itself when the origin is zero.
-/

namespace NetPack.Buffer

/-! ## Fields and objects as lists -/

/-- The fields of a table with their slots. -/
def Fields.toList : Fields → List (Nat × Entry)
  | .nil => []
  | .byte s v r => (s, .byte v) :: r.toList
  | .word s v r => (s, .word v) :: r.toList
  | .child s v r => (s, .child v) :: r.toList

def Objects.toList : Objects → List Object
  | .nil => []
  | .cons o r => o :: r.toList

@[simp] theorem Fields.toList_ofList (l : List (Nat × Entry)) : (Fields.ofList l).toList = l := by
  induction l with
  | nil => rfl
  | cons f r ih =>
    obtain ⟨s, e⟩ := f
    cases e <;> simp [Fields.ofList, Fields.toList, ih]

@[simp] theorem Objects.toList_ofList (l : List Object) : (Objects.ofList l).toList = l := by
  induction l with
  | nil => rfl
  | cons o r ih => simp [Objects.ofList, Objects.toList, ih]

theorem lookup_cons_eq_ite {α : Type} (slot s : Nat) (a : α) (l : List (Nat × α)) :
    ((s, a) :: l).lookup slot = if s = slot then some a else l.lookup slot := by
  by_cases h : s = slot
  · subst h
    simp
  · have hne : (slot == s) = false := by simpa using fun h' => h h'.symm
    simp [List.lookup_cons, h, hne]

theorem mem_of_lookup {α β : Type} [BEq α] [LawfulBEq α] {l : List (α × β)} {a : α} {b : β}
    (h : l.lookup a = some b) : (a, b) ∈ l := by
  obtain ⟨l₁, l₂, rfl, -⟩ := List.lookup_eq_some_iff.mp h
  simp

/-- A table holds in a slot what its first field of that slot holds. -/
theorem Fields.entry?_eq_lookup (slot : Nat) : ∀ fs : Fields, fs.entry? slot = fs.toList.lookup slot
  | .nil => rfl
  | .byte s v r => by rw [Fields.toList, Fields.entry?, lookup_cons_eq_ite, entry?_eq_lookup slot r]
  | .word s v r => by rw [Fields.toList, Fields.entry?, lookup_cons_eq_ite, entry?_eq_lookup slot r]
  | .child s v r => by rw [Fields.toList, Fields.entry?, lookup_cons_eq_ite, entry?_eq_lookup slot r]

/-! ## Good order -/

/-- The bytes that an entry takes in its table. -/
def Entry.width : Entry → Nat
  | .byte _ => 1
  | .word _ => 4
  | .child _ => 4

/-- A vector of elements of a width lies in the image. -/
structure Image.Vector (origin : Nat) (b : Image) (p width : Nat) : Prop where
  aligned : (origin + p) % 4 = 0
  inside : p + 4 + width * b.numberAt 4 p ≤ b.size

/-- A text lies in the image with the zero byte behind it. -/
structure Image.ZeroEnded (origin : Nat) (b : Image) (p : Nat) : Prop where
  aligned : (origin + p) % 4 = 0
  inside : p + 4 + b.numberAt 4 p + 1 ≤ b.size
  zero : b.byteAt (p + 4 + b.numberAt 4 p) = 0

instance (origin : Nat) (b : Image) (p width : Nat) : Decidable (b.Vector origin p width) :=
  decidable_of_iff (_ ∧ _) ⟨fun h => ⟨h.1, h.2⟩, fun h => ⟨h.aligned, h.inside⟩⟩

instance (origin : Nat) (b : Image) (p : Nat) : Decidable (b.ZeroEnded origin p) :=
  decidable_of_iff (_ ∧ _ ∧ _) ⟨fun h => ⟨h.1, h.2.1, h.2.2⟩, fun h => ⟨h.aligned, h.inside, h.zero⟩⟩

namespace Table

/-- The length of the vtable in bytes. -/
def vtableLength (t : Table) : Nat :=
  t.image.numberAt 2 t.vtable

/-- The length of the table in bytes, as its vtable has it. -/
def length (t : Table) : Nat :=
  t.image.numberAt 2 (t.vtable + 2)

/-- A table and its vtable lie in the image. -/
structure Framed (origin : Nat) (t : Table) : Prop where
  aligned : (origin + t.position) % 4 = 0
  vtable_nonneg : Int.bmod (t.image.numberAt 4 t.position) 0x100000000 ≤ t.position
  vtable_aligned : (origin + t.vtable) % 2 = 0
  vtableLength_even : t.vtableLength % 2 = 0
  le_vtableLength : 4 ≤ t.vtableLength
  vtable_inside : t.vtable + t.vtableLength ≤ t.image.size
  le_length : 4 ≤ t.length
  inside : t.position + t.length ≤ t.image.size

/-- A field of a width stands in the table at a position of the image, behind the distance to the
vtable. -/
structure Field (origin : Nat) (t : Table) (i width : Nat) : Prop where
  aligned : (origin + i) % width = 0
  after : t.position + 4 ≤ i
  inside : i + width ≤ t.position + t.length

instance (origin : Nat) (t : Table) : Decidable (t.Framed origin) :=
  decidable_of_iff (_ ∧ _ ∧ _ ∧ _ ∧ _ ∧ _ ∧ _ ∧ _)
    ⟨fun ⟨h₁, h₂, h₃, h₄, h₅, h₆, h₇, h₈⟩ => ⟨h₁, h₂, h₃, h₄, h₅, h₆, h₇, h₈⟩,
      fun ⟨h₁, h₂, h₃, h₄, h₅, h₆, h₇, h₈⟩ => ⟨h₁, h₂, h₃, h₄, h₅, h₆, h₇, h₈⟩⟩

instance (origin : Nat) (t : Table) (i width : Nat) : Decidable (t.Field origin i width) :=
  decidable_of_iff (_ ∧ _ ∧ _) ⟨fun h => ⟨h.1, h.2.1, h.2.2⟩, fun h => ⟨h.aligned, h.after, h.inside⟩⟩

end Table

/-- The image holds an entry at a position, where a child is a reference that leads forward. -/
def Entry.At (b : Image) (i : Nat) : Entry → Prop
  | .byte v => b.byteAt i = v
  | .word v => b.numberAt 4 i = v.toNat
  | .child _ => 0 < b.numberAt 4 i

/-- The image holds an object at a position in good order. -/
inductive Lays (origin : Nat) (b : Image) : Nat → Object → Prop
  | text {p : Nat} {bs : List UInt8} (ended : b.ZeroEnded origin p) (text : b.text p = bs) :
      Lays origin b p (.text bs)
  | words {p : Nat} {ws : List UInt32} (vector : b.Vector origin p 4) (words : b.words p = ws) :
      Lays origin b p (.words ws)
  | table {p : Nat} {fs : Fields} (framed : Table.Framed origin ⟨b, p⟩)
      (absent : ∀ s, fs.entry? s = none → Table.slot? ⟨b, p⟩ s = none)
      (present : ∀ s e, fs.entry? s = some e →
        ∃ i, Table.slot? ⟨b, p⟩ s = some i ∧ Table.Field origin ⟨b, p⟩ i e.width ∧ e.At b i)
      (apart : ∀ s s' e e' i i', s ≠ s' → fs.entry? s = some e → fs.entry? s' = some e' →
        Table.slot? ⟨b, p⟩ s = some i → Table.slot? ⟨b, p⟩ s' = some i' →
        i + e.width ≤ i' ∨ i' + e'.width ≤ i)
      (children : ∀ s o i, fs.entry? s = some (.child o) → Table.slot? ⟨b, p⟩ s = some i →
        Lays origin b (b.follow i) o) :
      Lays origin b p (.table fs)
  | tables {p : Nat} {os : Objects} (vector : b.Vector origin p 4)
      (length : b.numberAt 4 p = os.toList.length)
      (forward : ∀ e ∈ b.elements p, 0 < b.numberAt 4 e)
      (children : ∀ k o, os.toList[k]? = some o → Lays origin b (b.follow (p + 4 + 4 * k)) o) :
      Lays origin b p (.tables os)

end NetPack.Buffer
