import NetPack.Proofs.Schema.Reading

/-!
# What an accessor reads

The runs of bytes that the accessor of a field reads (`fieldReads`), as positions with lengths. They are
all that it reads: an image that has the same bytes there gives the same answer
(`sameAnswer_of_agree`).
-/

namespace NetPack.Schema

open Buffer (Image Table TableLike)

/-! ## Runs of bytes -/

/-- Two images have the same bytes in a run. -/
def Agree (b b' : Image) (run : Nat × Nat) : Prop :=
  ∀ k < run.2, b'.byteAt (run.1 + k) = b.byteAt (run.1 + k)

theorem Agree.numberAt {b b' : Image} {width : Nat} :
    ∀ {i : Nat}, Agree b b' (i, width) → b'.numberAt width i = b.numberAt width i := by
  induction width with
  | zero => exact fun _ => rfl
  | succ width ih =>
    intro i h
    have hhead : b'.byteAt i = b.byteAt i := h 0 (Nat.succ_pos width)
    have htail : Agree b b' (i + 1, width) := by
      intro k hk
      have := h (k + 1) (Nat.succ_lt_succ hk)
      rwa [Nat.add_comm k 1, ← Nat.add_assoc] at this
    rw [Image.numberAt, Image.numberAt, hhead, ih htail]

theorem Agree.follow {b b' : Image} {i : Nat} (h : Agree b b' (i, 4)) : b'.follow i = b.follow i := by
  rw [Image.follow, Image.follow, h.numberAt]

theorem Agree.text {b b' : Image} {i : Nat} (h : Agree b b' (i, 4))
    (ht : Agree b b' (i + 4, b.numberAt 4 i)) : b'.text i = b.text i := by
  rw [Image.text, Image.text, h.numberAt]
  exact List.map_congr_left fun k hk => ht k (List.mem_range.mp hk)

theorem Agree.elements {b b' : Image} {i : Nat} (h : Agree b b' (i, 4)) :
    b'.elements i = b.elements i := by
  rw [Image.elements, Image.elements, h.numberAt]

/-- The elements of a vector are runs of its run. -/
theorem Agree.element {b b' : Image} {i e : Nat} (h : Agree b b' (i + 4, 4 * b.numberAt 4 i))
    (he : e ∈ b.elements i) : Agree b b' (e, 4) := by
  obtain ⟨k, hk, rfl⟩ := List.mem_map.mp he
  have hlt := List.mem_range.mp hk
  intro j hj
  have := h (4 * k + j) (by simp only at hj ⊢; omega)
  rwa [← Nat.add_assoc] at this

theorem Agree.words {b b' : Image} {i : Nat} (h : Agree b b' (i, 4))
    (hv : Agree b b' (i + 4, 4 * b.numberAt 4 i)) : b'.words i = b.words i := by
  rw [Image.words, Image.words, h.elements]
  refine List.map_congr_left fun e he => ?_
  rw [(hv.element he).numberAt]

/-! ## Accessors -/

/-- What the search for a slot reads: the distance to the vtable, the length of the vtable, and the
place of the slot, if the vtable is long enough. -/
def slotReads (x : Table) (s : Nat) : List (Nat × Nat) :=
  (x.position, 4) :: (x.vtable, 2) ::
    if x.vtableLength < 4 + 2 * s + 2 then [] else [(x.vtable + (4 + 2 * s), 2)]

/-- What the accessor of a field that stands at a position reads there and behind the reference. -/
def FieldType.reads (b : Image) (i : Nat) : FieldType → List (Nat × Nat)
  | byte => [(i, 1)]
  | word => [(i, 4)]
  | text => [(i, 4), (b.follow i, 4), (b.follow i + 4, b.numberAt 4 (b.follow i))]
  | words | tables _ => [(i, 4), (b.follow i, 4), (b.follow i + 4, 4 * b.numberAt 4 (b.follow i))]
  | table _ | member _ _ => [(i, 4)]

/-- What the accessor of a field reads. -/
def fieldReads (x : Table) (s : Nat) (f : FieldType) : List (Nat × Nat) :=
  slotReads x s ++ (x.slot? s).elim [] fun i => f.reads x.image i

/-- Two tables give the same answer to an accessor, where a table that is given is known by its
position. -/
def SameAnswer (x y : Table) (s : Nat) : FieldType → Prop
  | .byte => TableLike.byte? x s = TableLike.byte? y s
  | .word => TableLike.word? x s = TableLike.word? y s
  | .text => TableLike.text? x s = TableLike.text? y s
  | .words => TableLike.words? x s = TableLike.words? y s
  | .table _ | .member _ _ =>
    (TableLike.table? x s).map Table.position = (TableLike.table? y s).map Table.position
  | .tables _ =>
    (TableLike.tables? x s).map (List.map Table.position)
      = (TableLike.tables? y s).map (List.map Table.position)

theorem slot?_of_agree {x : Table} {b : Image} {s : Nat}
    (h : ∀ run ∈ slotReads x s, Agree x.image b run) :
    Table.slot? ⟨b, x.position⟩ s = x.slot? s := by
  have hdistance : b.numberAt 4 x.position = x.image.numberAt 4 x.position :=
    (h _ (by simp [slotReads])).numberAt
  have hvtable : Table.vtable ⟨b, x.position⟩ = x.vtable := by
    unfold Table.vtable
    rw [hdistance]
  have hlength : b.numberAt 2 x.vtable = x.image.numberAt 2 x.vtable :=
    (h _ (by simp [slotReads])).numberAt
  simp only [Table.slot?, hvtable, hlength]
  by_cases hs : x.image.numberAt 2 x.vtable < 4 + 2 * s + 2
  · rw [if_pos hs, if_pos hs]
  · have hplace : b.numberAt 2 (x.vtable + (4 + 2 * s))
        = x.image.numberAt 2 (x.vtable + (4 + 2 * s)) :=
      (h _ (by simp [slotReads, Table.vtableLength, hs])).numberAt
    rw [if_neg hs, if_neg hs, hplace]

/-- An accessor reads nothing but its runs. -/
theorem sameAnswer_of_agree {x : Table} {b : Image} {s : Nat} {f : FieldType}
    (h : ∀ run ∈ fieldReads x s f, Agree x.image b run) : SameAnswer x ⟨b, x.position⟩ s f := by
  have hslot : Table.slot? ⟨b, x.position⟩ s = x.slot? s :=
    slot?_of_agree fun run hr => h run (List.mem_append_left _ hr)
  cases hi : x.slot? s with
  | none =>
    cases f with
    | byte => simp only [SameAnswer, TableLike.byte?, hslot, hi, Option.map_none]
    | word => simp only [SameAnswer, TableLike.word?, hslot, hi, Option.map_none]
    | text => simp only [SameAnswer, text?_table, hslot, hi, Option.map_none]
    | words => simp only [SameAnswer, words?_table, hslot, hi, Option.map_none]
    | table | member => simp only [SameAnswer, table?_table, hslot, hi, Option.map_none]
    | tables => simp only [SameAnswer, tables?_table, hslot, hi, Option.map_none]
  | some i =>
    have hf : ∀ run ∈ f.reads x.image i, Agree x.image b run := by
      intro run hr
      refine h run (List.mem_append_right _ ?_)
      rwa [hi]
    cases f with
    | byte =>
      have hbyte : b.byteAt i = x.image.byteAt i := hf (i, 1) List.mem_cons_self 0 Nat.one_pos
      simp only [SameAnswer, TableLike.byte?, hslot, hi, Option.map_some, hbyte]
    | word =>
      have hword := (hf (i, 4) List.mem_cons_self).numberAt
      simp only [SameAnswer, TableLike.word?, hslot, hi, Option.map_some, hword]
    | text =>
      have hfollow := (hf (i, 4) (by simp [FieldType.reads])).follow
      have htext := (hf (x.image.follow i, 4) (by simp [FieldType.reads])).text
        (hf _ (by simp [FieldType.reads]))
      simp only [SameAnswer, text?_table, hslot, hi, Option.map_some, hfollow, htext]
    | words =>
      have hfollow := (hf (i, 4) (by simp [FieldType.reads])).follow
      have hwords := (hf (x.image.follow i, 4) (by simp [FieldType.reads])).words
        (hf _ (by simp [FieldType.reads]))
      simp only [SameAnswer, words?_table, hslot, hi, Option.map_some, hfollow, hwords]
    | table | member =>
      have hfollow := (hf (i, 4) (by simp [FieldType.reads])).follow
      simp only [SameAnswer, table?_table, hslot, hi, Option.map_some, hfollow]
    | tables =>
      have hfollow := (hf (i, 4) (by simp [FieldType.reads])).follow
      have helements := (hf (x.image.follow i, 4) (by simp [FieldType.reads])).elements
      have hvector : Agree x.image b
          (x.image.follow i + 4, 4 * x.image.numberAt 4 (x.image.follow i)) :=
        hf _ (by simp [FieldType.reads])
      simp only [SameAnswer, tables?_table, hslot, hi, Option.map_some, hfollow, helements,
        List.map_map, Option.some.injEq]
      exact List.map_congr_left fun e he => ((hvector.element he).follow).symm

end NetPack.Schema
