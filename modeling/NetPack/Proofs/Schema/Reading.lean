import NetPack.Proofs.Schema.Simulation

/-!
# Reading depends on the logical content only

An image that holds a logical table in good order is read as that table is: every accessor of the one
gives what the accessor of the other gives (`byteAt_eq` and the lemmas after it). So the tables simulate
each other (`depicts_simulation`), and the whole content is the same (`ModelContent.of_eq`).
-/

namespace NetPack.Schema

open Buffer (Entry Fields Image Lays Object Objects Table TableLike)

/-- A table of an image lays out a logical table. -/
def Depicts (origin : Nat) (x : Table) (fs : Fields) : Prop :=
  Lays origin x.image x.position (.table fs)

/-! ## Tables of an image by slot -/

theorem words?_table (x : Table) (s : Nat) :
    TableLike.words? x s = (x.slot? s).map fun i => x.image.words (x.image.follow i) :=
  Option.map_map _ _ _

theorem text?_table (x : Table) (s : Nat) :
    TableLike.text? x s = (x.slot? s).map fun i => x.image.text (x.image.follow i) :=
  Option.map_map _ _ _

theorem table?_table (x : Table) (s : Nat) :
    TableLike.table? x s = (x.slot? s).map fun i => ⟨x.image, x.image.follow i⟩ :=
  Option.map_map _ _ _

theorem tables?_table (x : Table) (s : Nat) :
    TableLike.tables? x s = (x.slot? s).map fun i =>
      (x.image.elements (x.image.follow i)).map fun e => ⟨x.image, x.image.follow e⟩ :=
  Option.map_map _ _ _

/-! ## Fields -/

section Fields

variable {origin : Nat} {x : Table} {fs : Fields} {t : TableType} {s : Nat}

/-- A slot is absent in both tables, or it stands in the image and holds the entry. -/
theorem Depicts.slot?_cases (h : Depicts origin x fs) (s : Nat) :
    ( fs.entry? s = none ∧ x.slot? s = none) ∨
      ∃ e i, fs.entry? s = some e ∧ x.slot? s = some i ∧ e.At x.image i := by
  cases h with
  | table framed absent present apart children =>
    cases he : fs.entry? s with
    | none => exact .inl ⟨rfl, absent s he⟩
    | some e =>
      obtain ⟨i, hi, -, hat⟩ := present s e he
      exact .inr ⟨e, i, rfl, hi, hat⟩

/-- The target of a child is laid out where its reference leads. -/
theorem Depicts.child (h : Depicts origin x fs) {o : Object} {i : Nat}
    (he : fs.entry? s = some (.child o)) (hi : x.slot? s = some i) :
    Lays origin x.image (x.image.follow i) o := by
  cases h with
  | table framed absent present apart children => exact children s o i he hi

theorem byte?_eq (h : Depicts origin x fs) (ht : Typed t fs) (hf : t.field? s = some .byte) :
    TableLike.byte? x s = TableLike.byte? fs s := by
  rcases h.slot?_cases s with ⟨he, hs⟩ | ⟨e, i, he, hs, hat⟩
  · simp [TableLike.byte?, he, hs]
  · cases ht s _ e hf he with
    | byte v =>
      simp only [Entry.At] at hat
      simp [TableLike.byte?, he, hs, hat]

theorem byteAt_eq (h : Depicts origin x fs) (ht : Typed t fs)
    (hf : t.field? s = some .byte) : byteAt x s = byteAt fs s := by
  rw [byteAt, byteAt, byte?_eq h ht hf]

theorem word?_eq (h : Depicts origin x fs) (ht : Typed t fs) (hf : t.field? s = some .word) :
    TableLike.word? x s = TableLike.word? fs s := by
  rcases h.slot?_cases s with ⟨he, hs⟩ | ⟨e, i, he, hs, hat⟩
  · simp [TableLike.word?, he, hs]
  · cases ht s _ e hf he with
    | word v =>
      simp only [Entry.At] at hat
      simp [TableLike.word?, he, hs, hat]

theorem words?_eq (h : Depicts origin x fs) (ht : Typed t fs)
    (hf : t.field? s = some .words) : TableLike.words? x s = TableLike.words? fs s := by
  rcases h.slot?_cases s with ⟨he, hs⟩ | ⟨e, i, he, hs, -⟩
  · rw [words?_table, hs]
    simp [TableLike.words?, he]
  · cases ht s _ e hf he with
    | words ws =>
      cases h.child he hs with
      | words vector hws =>
        rw [words?_table, hs, Option.map_some, hws]
        simp [TableLike.words?, he]

theorem text?_eq (h : Depicts origin x fs) (ht : Typed t fs) (hf : t.field? s = some .text) :
    TableLike.text? x s = TableLike.text? fs s := by
  rcases h.slot?_cases s with ⟨he, hs⟩ | ⟨e, i, he, hs, -⟩
  · rw [text?_table, hs]
    simp [TableLike.text?, he]
  · cases ht s _ e hf he with
    | text bs =>
      cases h.child he hs with
      | text ended hbs =>
        rw [text?_table, hs, Option.map_some, hbs]
        simp [TableLike.text?, he]

/-- A field that holds a table, or the table of a union, is absent in both tables or leads to a table
that lays out the logical one. -/
theorem table?_cases (h : Depicts origin x fs) (ht : Typed t fs)
    (hf : (∃ t', t.field? s = some (.table t')) ∨ ∃ kind u, t.field? s = some (.member kind u)) :
    (TableLike.table? x s = none ∧ TableLike.table? fs s = none) ∨
      ∃ y fs', TableLike.table? x s = some y ∧ TableLike.table? fs s = some fs' ∧
        Depicts origin y fs' := by
  rcases h.slot?_cases s with ⟨he, hs⟩ | ⟨e, i, he, hs, -⟩
  · exact .inl ⟨by rw [table?_table, hs, Option.map_none], by simp [TableLike.table?, he]⟩
  · obtain ⟨fs', rfl⟩ : ∃ fs', e = .child (.table fs') := by
      rcases hf with ⟨t', hf⟩ | ⟨kind, u, hf⟩
      · cases ht s _ e hf he with
        | table t' fs' => exact ⟨fs', rfl⟩
      · cases ht s _ e hf he with
        | member kind u fs' => exact ⟨fs', rfl⟩
    exact .inr ⟨⟨x.image, x.image.follow i⟩, fs', by rw [table?_table, hs, Option.map_some],
      by simp [TableLike.table?, he], h.child he hs⟩

/-- A vector of tables is absent in both tables or leads to tables that lay out the logical ones. -/
theorem tables?_cases {t' : TableType} (h : Depicts origin x fs) (ht : Typed t fs)
    (hf : t.field? s = some (.tables t')) :
    (TableLike.tables? x s = none ∧ TableLike.tables? fs s = none) ∨
      ∃ ys fss, TableLike.tables? x s = some ys ∧ TableLike.tables? fs s = some fss ∧
        List.Forall₂ (Depicts origin) ys fss := by
  rcases h.slot?_cases s with ⟨he, hs⟩ | ⟨e, i, he, hs, -⟩
  · exact .inl ⟨by rw [tables?_table, hs, Option.map_none], by simp [TableLike.tables?, he]⟩
  · cases ht s _ e hf he with
    | @tables _ os all =>
      cases h.child he hs with
      | tables vector length forward children =>
        refine .inr ⟨_, os.tables, by rw [tables?_table, hs, Option.map_some],
          by simp [TableLike.tables?, he], ?_⟩
        rw [all, List.length_map] at length
        rw [List.forall₂_iff_get]
        refine ⟨by simp [Image.elements, length], ?_⟩
        intro k h₁ h₂
        have hc := children k (.table os.tables[k]) (by simp [all, h₂])
        simpa [Depicts, Image.elements] using hc

end Fields

/-! ## Contents -/

/-- A table of a field that is one, or of a union whose kind is known. -/
theorem rel_table? {origin : Nat} {x : Table} {fs : Fields} {t t' : TableType} {s : Nat}
    (h : Depicts origin x fs) (ht : WellTyped t fs)
    (hf : (∃ t', t.field? s = some (.table t')) ∨ ∃ kind u, t.field? s = some (.member kind u))
    (haccess : ∀ fs', TableLike.table? fs s = some fs' → Access t fs t' fs') :
    Option.Rel (fun y fs' => Depicts origin y fs' ∧ WellTyped t' fs') (TableLike.table? x s)
      (TableLike.table? fs s) := by
  rcases table?_cases h ht.typed hf with ⟨hy, hfs⟩ | ⟨y, fs', hy, hfs, hd⟩
  · rw [hy, hfs]
    exact .none
  · rw [hy, hfs]
    exact .some ⟨hd, ht.access (haccess fs' hfs)⟩

/-- A table in order and what it is laid out as answer alike. -/
theorem depicts_simulation {origin : Nat} :
    Simulation fun t x fs => Depicts origin x fs ∧ WellTyped t fs where
  byte h hf := byte?_eq h.1 h.2.typed hf
  word h hf := word?_eq h.1 h.2.typed hf
  text h hf := text?_eq h.1 h.2.typed hf
  words h hf := words?_eq h.1 h.2.typed hf
  table h hf := rel_table? h.1 h.2 (.inl ⟨_, hf⟩) fun _ hfs => .table hf hfs
  member h hf hu := rel_table? h.1 h.2 (.inr ⟨_, _, hf⟩) fun _ hfs => .member hf hu hfs
  tables h hf := by
    rcases tables?_cases h.1 h.2.typed hf with ⟨hy, hfs⟩ | ⟨ys, fss, hy, hfs, hall⟩
    · rw [hy, hfs]
      exact .none
    · rw [hy, hfs]
      refine .some (forall₂_of_mem_right hall fun y fs' hmem hd => ⟨hd, ?_⟩)
      exact h.2.access (.element hf hfs hmem)

/-- The content of an image is that of the logical table which it lays out. -/
theorem ModelContent.of_eq {origin : Nat} {x : Table} {fs : Fields} (h : Depicts origin x fs)
    (ht : WellTyped .model fs) : ModelContent.of x = ModelContent.of fs :=
  depicts_simulation.model_eq ⟨h, ht⟩

end NetPack.Schema
