import NetPack.Buffer.Table

/-!
# Images that grow at the front

Bytes put in front of an image move all positions in it, but not their distances from the end. What is read at
a position depends on the bytes behind it alone, so the same is read at the moved position (`Image.text_grown`
and the lemmas beside it). A table also reads its vtable, which may stand in front of it, but not in front of the
image; then all its answers stay, where a table among them is told by its distance from the end
(`Table.answers_grown`).
-/

namespace NetPack.Buffer

/-! ## Numbers, texts and vectors -/

namespace Image

/-- The position that stands so many bytes before the end. -/
def place (b : Image) (offset : Nat) : Nat :=
  b.size - offset

variable (front b : Image) (i : Nat)

theorem place_grown {offset : Nat} (h : offset ≤ b.size) :
    place (front ++ b) offset = front.size + b.place offset := by
  rw [place, place, Array.size_append]
  omega

theorem byteAt_grown : byteAt (front ++ b) (front.size + i) = b.byteAt i := by
  rw [byteAt, byteAt, Array.getD_eq_getD_getElem?, Array.getD_eq_getD_getElem?,
    Array.getElem?_append_right (Nat.le_add_right _ _), Nat.add_sub_cancel_left]

theorem numberAt_grown (width : Nat) : numberAt (front ++ b) width (front.size + i) = b.numberAt width i := by
  induction width generalizing i with
  | zero => rfl
  | succ width ih => rw [numberAt, numberAt, byteAt_grown, Nat.add_assoc, ih]

theorem follow_grown : follow (front ++ b) (front.size + i) = front.size + b.follow i := by
  rw [follow, follow, numberAt_grown, Nat.add_assoc]

theorem text_grown : text (front ++ b) (front.size + i) = b.text i := by
  rw [text, text, numberAt_grown]
  refine List.map_congr_left fun k _ => ?_
  rw [Nat.add_assoc, Nat.add_assoc, ← Nat.add_assoc i, byteAt_grown]

theorem elements_grown : elements (front ++ b) (front.size + i) = (b.elements i).map (front.size + ·) := by
  rw [elements, elements, numberAt_grown, List.map_map]
  refine List.map_congr_left fun k _ => ?_
  rw [Function.comp_apply, Nat.add_assoc, Nat.add_assoc, Nat.add_assoc]

theorem words_grown : words (front ++ b) (front.size + i) = b.words i := by
  rw [words, words, elements_grown, List.map_map]
  refine List.map_congr_left fun e _ => ?_
  rw [Function.comp_apply, numberAt_grown]

/-- The distances from the end that the references in the vector at a position lead to. -/
def references (b : Image) (i : Nat) : List Nat :=
  (b.elements i).map fun e => b.size - b.follow e

theorem references_grown : references (front ++ b) (front.size + i) = b.references i := by
  rw [references, references, elements_grown, List.map_map]
  refine List.map_congr_left fun e _ => ?_
  rw [Function.comp_apply, follow_grown, Array.size_append, Nat.add_sub_add_left]

end Image

/-! ## Tables -/

namespace Table

/-- The distance of a table from the end of its image. -/
def offset (x : Table) : Nat :=
  x.image.size - x.position

/-- The table at an offset. -/
def ofOffset (b : Image) (offset : Nat) : Table :=
  ⟨b, b.place offset⟩

/-- What the accessors of a slot answer. What the slot refers to is told by its distance from the end, and so are
the tables in a vector. -/
structure Answers where
  byte : Option UInt8
  word : Option UInt32
  text : Option (List UInt8)
  words : Option (List UInt32)
  target : Option Nat
  tables : Option (List Nat)

def answers (x : Table) (slot : Nat) : Answers where
  byte := TableLike.byte? x slot
  word := TableLike.word? x slot
  text := TableLike.text? x slot
  words := TableLike.words? x slot
  target := (TableLike.table? x slot).map offset
  tables := (TableLike.tables? x slot).map fun ys => ys.map offset

/-- The answers for a slot that a table does not hold. -/
def Answers.absent : Answers :=
  ⟨none, none, none, none, none, none⟩

theorem answers_of_slot?_eq_none {x : Table} {slot : Nat} (h : x.slot? slot = none) :
    x.answers slot = .absent := by
  have htarget : x.target? slot = none := by rw [target?, h, Option.map_none]
  simp only [answers, TableLike.byte?, TableLike.word?, TableLike.text?, TableLike.words?, TableLike.table?,
    TableLike.tables?, h, htarget, Option.map_none]
  rfl

/-- The table once more bytes are put in front of its image. -/
def grown (x : Table) (front : Image) : Table :=
  ⟨front ++ x.image, front.size + x.position⟩

/-- The vtable does not start in front of the image. -/
def VtableInside (x : Table) : Prop :=
  Int.bmod (x.image.numberAt 4 x.position) 0x100000000 ≤ x.position

section Grown

variable {x : Table} (front : Image)

theorem image_grown : (x.grown front).image = front ++ x.image :=
  rfl

theorem position_grown : (x.grown front).position = front.size + x.position :=
  rfl

theorem vtableInside_grown (h : x.VtableInside) : (x.grown front).VtableInside := by
  unfold VtableInside at h ⊢
  rw [image_grown, position_grown, Image.numberAt_grown]
  omega

theorem vtable_grown (h : x.VtableInside) : (x.grown front).vtable = front.size + x.vtable := by
  unfold VtableInside at h
  unfold vtable
  rw [image_grown, position_grown, Image.numberAt_grown]
  generalize Int.bmod (x.image.numberAt 4 x.position) 0x100000000 = d at h
  omega

theorem slot?_grown (h : x.VtableInside) (slot : Nat) :
    (x.grown front).slot? slot = (x.slot? slot).map (front.size + ·) := by
  simp only [slot?, vtable_grown front h, image_grown, position_grown, Nat.add_assoc, Image.numberAt_grown]
  split
  · rfl
  · split
    · rfl
    · rfl

theorem target?_grown (h : x.VtableInside) (slot : Nat) :
    (x.grown front).target? slot = (x.target? slot).map (front.size + ·) := by
  rw [target?, target?, slot?_grown front h, image_grown, Option.map_map, Option.map_map]
  refine Option.map_congr fun i _ => ?_
  rw [Function.comp_apply, Function.comp_apply, Image.follow_grown]

theorem offset_grown (b : Image) (i : Nat) : offset ⟨front ++ b, front.size + i⟩ = offset ⟨b, i⟩ := by
  rw [offset, offset, Array.size_append, Nat.add_sub_add_left]

theorem ofOffset_grown {b : Image} {offset : Nat} (h : offset ≤ b.size) :
    ofOffset (front ++ b) offset = (ofOffset b offset).grown front := by
  rw [ofOffset, Image.place_grown front b h]
  rfl

/-- The answers are the same for each slot. -/
theorem answers_grown (h : x.VtableInside) : (x.grown front).answers = x.answers := by
  funext slot
  simp only [answers, TableLike.byte?, TableLike.word?, TableLike.text?, TableLike.words?, TableLike.table?,
    TableLike.tables?, slot?_grown front h, target?_grown front h, image_grown, Option.map_map, Function.comp_def,
    Image.byteAt_grown, Image.numberAt_grown, Image.text_grown, Image.words_grown, Image.elements_grown,
    Image.follow_grown, offset_grown, List.map_map]

end Grown

end Table

end NetPack.Buffer
