import NetPack.Proofs.Schema.Footprint
import NetPack.Proofs.Schema.RoundTrip

/-!
# Packed networks are safe to read

The reader of the format trusts a buffer: it checks no position and no length. `WellFormed` is what it
takes for granted, for the root and for every table that a chain of accessors reaches from it, and it
keeps all reads inside the buffer (`WellFormed.reads_inside`). The bytes of a network are well formed
(`Network.wellFormed_toBytes`): a chain of accessors through them follows one through the logical
tables (`reaches_simulated`), which are in order.
-/

namespace NetPack.Schema

open Buffer (Entry Fields Image Lays Table TableLike)

/-! ## Well-formed buffers -/

/-- A field at a position of the image refers to something that is placed as its type asks for. -/
def Leads (b : Image) (i : Nat) : FieldType → Prop
  | .byte | .word => True
  | .text =>
    0 < b.numberAt 4 i ∧ b.ZeroEnded 0 (b.follow i) ∧ ∃ cs, b.text (b.follow i) = Text.utf8 cs
  | .words => 0 < b.numberAt 4 i ∧ b.Vector 0 (b.follow i) 4
  | .table _ | .member _ _ => 0 < b.numberAt 4 i
  | .tables _ =>
    0 < b.numberAt 4 i ∧ b.Vector 0 (b.follow i) 4 ∧
      ∀ e ∈ b.elements (b.follow i), 0 < b.numberAt 4 e

/-- A table of a kind can be read. Nothing is said here of the tables that it refers to. -/
structure SafeTable (t : TableType) (x : Table) : Prop where
  framed : x.Framed 0
  field : ∀ s i, x.slot? s = some i →
    ∃ f, t.field? s = some f ∧ x.Field 0 i f.width ∧ Leads x.image i f
  apart : ∀ s s' i i' f f', s ≠ s' → x.slot? s = some i → x.slot? s' = some i' →
    t.field? s = some f → t.field? s' = some f' → i + f.width ≤ i' ∨ i' + f'.width ≤ i
  union : ∀ s kind u, t.field? s = some (.member kind u) →
    ((x.slot? s).isSome ↔ byteAt x kind ≠ 0) ∧
      (byteAt x kind ≠ 0 → ∃ t', u.member? (byteAt x kind) = some t')

/-- A buffer of the format that can be read. -/
structure WellFormed (b : Image) : Prop where
  size_aligned : b.size % 4 = 0
  root_inside : 4 ≤ b.size
  root_forward : 0 < b.numberAt 4 0
  safe : ∀ t x, Reaches .model (Table.root b) t x → SafeTable t x

/-! ## Reads stay inside -/

theorem Leads.reads_inside {b : Image} {i : Nat} {f : FieldType} (h : Leads b i f)
    (hi : i + f.width ≤ b.size) : ∀ run ∈ f.reads b i, run.1 + run.2 ≤ b.size := by
  intro run hr
  cases f with
  | byte | word | table | member =>
    obtain rfl := List.mem_singleton.mp hr
    exact hi
  | text =>
    obtain ⟨-, ended, -⟩ := h
    have := ended.inside
    simp only [FieldType.reads, List.mem_cons, List.not_mem_nil, or_false] at hr
    rcases hr with rfl | rfl | rfl
    · exact hi
    · show b.follow i + 4 ≤ b.size
      omega
    · show b.follow i + 4 + b.numberAt 4 (b.follow i) ≤ b.size
      omega
  | words =>
    obtain ⟨-, vector⟩ := h
    have := vector.inside
    simp only [FieldType.reads, List.mem_cons, List.not_mem_nil, or_false] at hr
    rcases hr with rfl | rfl | rfl
    · exact hi
    · show b.follow i + 4 ≤ b.size
      omega
    · exact this
  | tables =>
    obtain ⟨-, vector, -⟩ := h
    have := vector.inside
    simp only [FieldType.reads, List.mem_cons, List.not_mem_nil, or_false] at hr
    rcases hr with rfl | rfl | rfl
    · exact hi
    · show b.follow i + 4 ≤ b.size
      omega
    · exact this

theorem slotReads_inside {x : Table} (h : x.Framed 0) (s : Nat) :
    ∀ run ∈ slotReads x s, run.1 + run.2 ≤ x.image.size := by
  have hlength := h.le_length
  have hinside := h.inside
  have hvlength := h.le_vtableLength
  have hvinside := h.vtable_inside
  intro run hr
  simp only [slotReads, List.mem_cons] at hr
  rcases hr with rfl | rfl | hr
  · dsimp only
    omega
  · dsimp only
    omega
  · split at hr
    · cases hr
    · obtain rfl := List.mem_singleton.mp hr
      dsimp only
      omega

/-- The accessors of a table read inside its image. -/
theorem SafeTable.reads_inside {t : TableType} {x : Table} (h : SafeTable t x) {s : Nat}
    {f : FieldType} (hf : t.field? s = some f) :
    ∀ run ∈ fieldReads x s f, run.1 + run.2 ≤ x.image.size := by
  intro run hr
  rcases List.mem_append.mp hr with hr | hr
  · exact slotReads_inside h.framed s run hr
  · cases hi : x.slot? s with
    | none =>
      rw [hi] at hr
      cases hr
    | some i =>
      rw [hi] at hr
      obtain ⟨f', hf', placed, leads⟩ := h.field s i hi
      cases hf.symm.trans hf'
      have hend := placed.inside
      have hinside := h.framed.inside
      exact leads.reads_inside (by omega) run hr

/-- What an accessor of a safe table answers depends on the bytes of its image only, whatever follows
them. -/
theorem SafeTable.sameAnswer {t : TableType} {x : Table} (h : SafeTable t x) {s : Nat} {f : FieldType}
    (hf : t.field? s = some f) {b : Image} (hb : ∀ i < x.image.size, b.byteAt i = x.image.byteAt i) :
    SameAnswer x ⟨b, x.position⟩ s f := by
  refine sameAnswer_of_agree fun run hr k hk => hb _ ?_
  have hinside := h.reads_inside hf run hr
  omega

/-! ## Chains of accessors -/

theorem image_of_table? {x y : Table} {s : Nat} (h : TableLike.table? x s = some y) :
    y.image = x.image := by
  rw [table?_table, Option.map_eq_some_iff] at h
  obtain ⟨i, -, rfl⟩ := h
  rfl

theorem image_of_tables? {x y : Table} {s : Nat} {ys : List Table}
    (h : TableLike.tables? x s = some ys) (hy : y ∈ ys) : y.image = x.image := by
  rw [tables?_table, Option.map_eq_some_iff] at h
  obtain ⟨i, -, rfl⟩ := h
  obtain ⟨e, -, rfl⟩ := List.mem_map.mp hy
  rfl

theorem Access.image_eq {t t' : TableType} {x y : Table} (h : Access t x t' y) :
    y.image = x.image := by
  cases h with
  | table field found => exact image_of_table? found
  | element field found mem => exact image_of_tables? found mem
  | member field known found => exact image_of_table? found

theorem Reaches.image_eq {t t' : TableType} {x y : Table} (h : Reaches t x t' y) :
    y.image = x.image := by
  induction h with
  | refl => rfl
  | tail _ last ih => exact last.image_eq.trans ih

/-- No accessor of a table that is reached in a well-formed buffer reads outside of the buffer. -/
theorem WellFormed.reads_inside {b : Image} (h : WellFormed b) {t : TableType} {x : Table}
    (hr : Reaches .model (Table.root b) t x) {s : Nat} {f : FieldType} (hf : t.field? s = some f) :
    ∀ run ∈ fieldReads x s f, run.1 + run.2 ≤ b.size := by
  have hinside := (h.safe t x hr).reads_inside hf
  rwa [hr.image_eq] at hinside

theorem reaches_simulated {t t' : TableType} {x y : Table} {fs : Fields} (hd : Depicts 0 x fs)
    (hc : Conforms t fs) (hr : Reaches t x t' y) :
    ∃ fs', Reaches t fs t' fs' ∧ Depicts 0 y fs' := by
  obtain ⟨fs', hr', hd', -⟩ := depicts_simulation.reaches ⟨hd, hc.wellTyped⟩ hr
  exact ⟨fs', hr', hd'⟩

/-! ## Tables in good order are safe -/

theorem Has.width_eq {f : FieldType} {e : Entry} (h : Has f e) : e.width = f.width := by
  cases h <;> rfl

theorem safeTable_of_depicts {t : TableType} {x : Table} {fs : Fields} (hd : Depicts 0 x fs)
    (ho : InOrder t fs) : SafeTable t x := by
  have hchild := fun {s o i} => hd.child (s := s) (o := o) (i := i)
  have hbyte : ∀ {s kind u}, t.field? s = some (.member kind u) → byteAt x kind = byteAt fs kind :=
    fun hf => byteAt_eq hd ho.typed (field?_kind hf)
  cases hd with
  | table framed absent present apart children =>
    have hpresent : ∀ s i, x.slot? s = some i → ∃ e f, fs.entry? s = some e ∧ t.field? s = some f ∧
        Has f e ∧ x.Field 0 i e.width ∧ e.At x.image i := by
      intro s i hi
      cases he : fs.entry? s with
      | none => cases (absent s he).symm.trans hi
      | some e =>
        obtain ⟨i', hi', hfield, hat⟩ := present s e he
        cases hi.symm.trans hi'
        obtain ⟨f, hf, hh⟩ := ho.has s e he
        exact ⟨e, f, rfl, hf, hh, hfield, hat⟩
    refine ⟨framed, ?_, ?_, ?_⟩
    · intro s i hi
      obtain ⟨e, f, he, hf, hh, hfield, hat⟩ := hpresent s i hi
      refine ⟨f, hf, hh.width_eq ▸ hfield, ?_⟩
      cases hh with
      | byte | word => trivial
      | text bs =>
        obtain ⟨cs, hcs⟩ := ho.text s bs he
        cases hchild he hi with
        | text ended text => exact ⟨hat, ended, cs, text.trans hcs⟩
      | words ws =>
        cases hchild he hi with
        | words vector words => exact ⟨hat, vector⟩
      | table | member => exact hat
      | tables =>
        cases hchild he hi with
        | tables vector length forward children => exact ⟨hat, vector, forward⟩
    · intro s s' i i' f f' hne hi hi' hf hf'
      obtain ⟨e, f₁, he, hf₁, hh, -⟩ := hpresent s i hi
      obtain ⟨e', f₂, he', hf₂, hh', -⟩ := hpresent s' i' hi'
      cases hf.symm.trans hf₁
      cases hf'.symm.trans hf₂
      rw [← hh.width_eq, ← hh'.width_eq]
      exact apart s s' e e' i i' hne he he' hi hi'
    · intro s kind u hf
      rw [hbyte hf]
      rcases ho.member s kind u hf with ⟨hzero, hnone⟩ | ⟨t', fs', hu, he⟩
      · have habsent : x.slot? s = none := absent s hnone
        rw [habsent, hzero]
        exact ⟨by simp, fun h => absurd rfl h⟩
      · obtain ⟨i, hi, -⟩ := present s _ he
        have hsome : x.slot? s = some i := hi
        have hne : byteAt fs kind ≠ 0 := by
          intro hzero
          rw [hzero] at hu
          cases u <;> cases hu
        rw [hsome]
        exact ⟨by simp [hne], fun _ => ⟨t', hu⟩⟩

end NetPack.Schema

namespace NetPack

open Schema
open Buffer (Table)
open Buffer.Writer (sizeLimit)

/-- The bytes of a network are well formed. -/
theorem Network.wellFormed (n : Network) (h : n.toBytes.length < sizeLimit) : WellFormed n.toBytes.toArray := by
  obtain ⟨fs, hd, hc, -⟩ := n.depicts_root h
  obtain ⟨hsize, hforward, -⟩ := Buffer.Object.lays_toBytes n.fits_toObject h
  have hsafe : ∀ t x, Reaches .model (Table.root n.toBytes.toArray) t x → SafeTable t x := by
    intro t x hr
    obtain ⟨fs', hr', hd'⟩ := reaches_simulated hd hc hr
    exact safeTable_of_depicts hd' (hc.reaches hr').inOrder
  have hroot := (hsafe _ _ .refl).framed
  have hinside : 4 ≤ n.toBytes.length :=
    Nat.le_trans hroot.le_length (Nat.le_trans (Nat.le_add_left _ _) hroot.inside)
  exact ⟨hsize, hinside, hforward, hsafe⟩

/-- The bytes of a network can be read: they are well formed, and no accessor of a table that is reached
from the root reads outside of them. -/
theorem Network.wellFormed_toBytes (n : Network) (h : n.toBytes.length < sizeLimit) :
    WellFormed n.toBytes.toArray ∧
      ∀ t x s f, Reaches .model (Table.root n.toBytes.toArray) t x → t.field? s = some f →
        ∀ run ∈ fieldReads x s f, run.1 + run.2 ≤ n.toBytes.length := by
  have hw := n.wellFormed h
  exact ⟨hw, fun t x s f hr hf => hw.reads_inside hr hf⟩

theorem twoZeros_wellFormed : WellFormed twoZeros.toBytes.toArray ∧
    ∀ t x s f, Reaches .model (Table.root twoZeros.toBytes.toArray) t x → t.field? s = some f →
      ∀ run ∈ fieldReads x s f, run.1 + run.2 ≤ twoZeros.toBytes.length :=
  twoZeros.wellFormed_toBytes length_twoZeros

end NetPack
