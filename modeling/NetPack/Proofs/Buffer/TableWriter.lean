import Mathlib.Data.List.Nodup
import NetPack.Proofs.Buffer.Layout
import NetPack.Proofs.Buffer.Writer
import NetPack.Proofs.Matching

/-!
# What the write of a table leaves in a buffer

The cells of a table stand in the buffer in the order of their slots, each in front of the one before
(`Placed`). The vtable is written behind them or found among those written before, which is why every
vtable that the writer remembers must stand where it says (`Writer.Sound`). `Tabled` is the
description of the written table by distances from the end, and `Tabled.slot?_eq` is what a reader
makes of it in any larger buffer.
-/

namespace NetPack.Buffer

/-! ## Lookups in lists of slots -/

section Lookup

variable {α : Type}

theorem lookup_eq_some_iff_mem {l : List (Nat × α)} (h : (l.map (·.1)).Nodup) {s : Nat} {a : α} :
    l.lookup s = some a ↔ (s, a) ∈ l := by
  induction l with
  | nil => simp
  | cons f r ih =>
    obtain ⟨t, b⟩ := f
    rw [List.map_cons, List.nodup_cons] at h
    rw [lookup_cons_eq_ite, List.mem_cons]
    by_cases hs : t = s
    · subst hs
      rw [if_pos rfl]
      constructor
      · rintro ⟨⟩
        exact .inl rfl
      · rintro (h' | h')
        · rw [(Prod.mk.inj h').2]
        · exact absurd (List.mem_map_of_mem h') h.1
    · rw [if_neg hs, ih h.2]
      constructor
      · exact .inr
      · rintro (h' | h')
        · exact absurd (Prod.mk.inj h').1.symm hs
        · exact h'

/-- A lookup does not depend on the order of the list. -/
theorem lookup_perm {l l' : List (Nat × α)} (hp : l.Perm l') (h : (l.map (·.1)).Nodup) (s : Nat) :
    l.lookup s = l'.lookup s := by
  have h' : (l'.map (·.1)).Nodup := (hp.map _).nodup_iff.mp h
  apply Option.ext
  intro a
  rw [lookup_eq_some_iff_mem h, lookup_eq_some_iff_mem h', hp.mem_iff]

/-- A row for a slot has one field at most, which is in the slot. -/
def RowFor (s : Nat) (r : List (Nat × α)) : Prop :=
  ∀ f ∈ r, f.1 = s ∧ r = [f]

variable {slots : List Nat} {rows : List (List (Nat × α))}

theorem slot_mem_of_mem_flatten (h : List.Forall₂ RowFor slots rows) {f : Nat × α} (hf : f ∈ rows.flatten) :
    f.1 ∈ slots := by
  obtain ⟨r, hr, hf⟩ := List.mem_flatten.mp hf
  obtain ⟨s, hs, hrow⟩ := exists_of_mem_right h hr
  rw [(hrow f hf).1]
  exact hs

theorem lookup_flatten_eq_none (h : List.Forall₂ RowFor slots rows) {s : Nat} (hs : s ∉ slots) :
    rows.flatten.lookup s = none := by
  refine List.lookup_eq_none_iff.mpr fun f hf => bne_iff_ne.mpr fun he => hs ?_
  rw [he]
  exact slot_mem_of_mem_flatten h hf

/-- A slot holds what its own row holds. -/
theorem lookup_flatten_eq (h : List.Forall₂ RowFor slots rows) (hn : slots.Nodup) {i s : Nat}
    {r : List (Nat × α)} (hs : slots[i]? = some s) (hr : rows[i]? = some r) :
    rows.flatten.lookup s = r.lookup s := by
  induction h generalizing i with
  | nil => cases hs
  | @cons s' r' slots' rows' hrow htail ih =>
    obtain ⟨hhead, htailnd⟩ := List.nodup_cons.mp hn
    rw [List.flatten_cons, List.lookup_append]
    cases i with
    | zero =>
      simp only [List.getElem?_cons_zero, Option.some.injEq] at hs hr
      subst hs hr
      rw [lookup_flatten_eq_none htail hhead, Option.or_none]
    | succ i =>
      rw [List.getElem?_cons_succ] at hs hr
      have hne : s' ≠ s := fun he => hhead (he ▸ List.mem_of_getElem? hs)
      have hnone : r'.lookup s = none := List.lookup_eq_none_iff.mpr fun f hf =>
        bne_iff_ne.mpr fun he => hne ((hrow f hf).1.symm.trans he.symm)
      rw [hnone, Option.none_or, ih htailnd hs hr]

theorem sublist_slots (h : List.Forall₂ RowFor slots rows) : (rows.flatten.map (·.1)).Sublist slots := by
  induction h with
  | nil => exact .slnil
  | @cons s r slots' rows' hr _ ih =>
    rw [List.flatten_cons, List.map_append]
    cases r with
    | nil => exact ih.cons s
    | cons f r' =>
      obtain ⟨rfl, heq⟩ := hr f List.mem_cons_self
      rw [heq]
      exact ih.cons_cons f.1

end Lookup

namespace Writer

/-! ## Cells in a row -/

/-- The cells of a table stand in the buffer at the offsets that are given beside their slots, the
first in front of the offset `start` and each other in front of the one before. -/
inductive Placed (buffer : List UInt8) : Nat → List (Nat × Cell) → List (Nat × Nat) → Prop
  | nil {start : Nat} : Placed buffer start [] []
  | cons {start s q : Nat} {c : Cell} {cs : List (Nat × Cell)} {ps : List (Nat × Nat)}
      (le : start + c.width ≤ q) (aligned : q % c.width = 0) (holds : Holds buffer q (c.bytes q))
      (rest : Placed buffer q cs ps) : Placed buffer start ((s, c) :: cs) ((s, q) :: ps)

namespace Placed

variable {buffer : List UInt8} {start : Nat} {cs : List (Nat × Cell)} {ps : List (Nat × Nat)}

theorem of_suffix {larger : List UInt8} (h : Placed buffer start cs ps) (hs : buffer <:+ larger) :
    Placed larger start cs ps := by
  induction h with
  | nil => exact .nil
  | cons le aligned holds _ ih => exact .cons le aligned (holds.of_suffix hs) ih

theorem slots_eq (h : Placed buffer start cs ps) : ps.map (·.1) = cs.map (·.1) := by
  induction h with
  | nil => rfl
  | cons _ _ _ _ ih => simp [ih]

theorem lookup_none (h : Placed buffer start cs ps) {s : Nat} (hs : cs.lookup s = none) :
    ps.lookup s = none := by
  induction h with
  | nil => rfl
  | @cons _ t _ _ _ _ _ _ _ _ ih =>
    rw [lookup_cons_eq_ite] at hs ⊢
    by_cases ht : t = s
    · rw [if_pos ht] at hs
      cases hs
    · rw [if_neg ht] at hs ⊢
      exact ih hs

theorem lookup_some (h : Placed buffer start cs ps) {s : Nat} {c : Cell}
    (hs : cs.lookup s = some c) :
    ∃ q, ps.lookup s = some q ∧ start + c.width ≤ q ∧ q % c.width = 0 ∧
      Holds buffer q (c.bytes q) := by
  induction h with
  | nil => cases hs
  | @cons _ t q _ _ _ le aligned holds _ ih =>
    rw [lookup_cons_eq_ite] at hs ⊢
    by_cases ht : t = s
    · rw [if_pos ht] at hs ⊢
      cases hs
      exact ⟨q, rfl, le, aligned, holds⟩
    · rw [if_neg ht] at hs ⊢
      obtain ⟨q', hq', hle, hrest⟩ := ih hs
      exact ⟨q', hq', by omega, hrest⟩

theorem le_length (h : Placed buffer start cs ps) {s q : Nat} (hq : ps.lookup s = some q) :
    q ≤ buffer.length := by
  induction h with
  | nil => cases hq
  | @cons _ t r _ _ _ _ _ holds _ ih =>
    rw [lookup_cons_eq_ite] at hq
    by_cases ht : t = s
    · rw [if_pos ht] at hq
      cases hq
      exact holds.le_length
    · rw [if_neg ht] at hq
      exact ih hq

/-- The cells of two slots do not overlap. -/
theorem apart (h : Placed buffer start cs ps) {s s' q q' : Nat} {c c' : Cell} (hne : s ≠ s')
    (hs : cs.lookup s = some c) (hs' : cs.lookup s' = some c') (hq : ps.lookup s = some q)
    (hq' : ps.lookup s' = some q') : q + c'.width ≤ q' ∨ q' + c.width ≤ q := by
  induction h with
  | nil => cases hs
  | @cons _ t r _ _ _ _ _ _ rest ih =>
    rw [lookup_cons_eq_ite] at hs hs' hq hq'
    by_cases ht : t = s
    · have ht' : ¬ t = s' := fun h => hne (ht.symm.trans h)
      rw [if_pos ht] at hs hq
      rw [if_neg ht'] at hs' hq'
      cases hq
      obtain ⟨q'', hq'', hle, -⟩ := rest.lookup_some hs'
      rw [hq'] at hq''
      cases hq''
      exact .inl hle
    · rw [if_neg ht] at hs hq
      by_cases ht' : t = s'
      · rw [if_pos ht'] at hs' hq'
        cases hq'
        obtain ⟨q'', hq'', hle, -⟩ := rest.lookup_some hs
        rw [hq] at hq''
        cases hq''
        exact .inr hle
      · rw [if_neg ht'] at hs' hq'
        exact ih hs hs' hq hq'

end Placed

/-- What the write of cells does to a buffer. -/
theorem placed_cells (w : Writer) (cs : List (Nat × Cell)) :
    Placed (w.cells cs).1.bytes w.size cs (w.cells cs).2 ∧ w.bytes <:+ (w.cells cs).1.bytes ∧
      (w.cells cs).1.vtables = w.vtables ∧ (w.cells cs).1.size ≤ w.size + 7 * cs.length := by
  induction cs generalizing w with
  | nil => exact ⟨.nil, List.suffix_rfl, rfl, Nat.le_refl _⟩
  | cons f r ih =>
    obtain ⟨s, c⟩ := f
    have hp := w.put_cell c
    obtain ⟨hr, hs, hv, hl⟩ := ih (w.cell c)
    refine ⟨.cons hp.le_size hp.aligned (hp.holds.of_suffix hs) hr, hp.suffix.trans hs,
      hv.trans hp.vtables, ?_⟩
    have := hp.size_le
    simp only [cells, List.length_cons]
    omega

/-! ## Vtables -/

/-- The number of slots that a vtable has entries for. -/
def slotCount (placed : List (Nat × Nat)) : Nat :=
  (placed.map fun p => p.1 + 1).foldl max 0

/-- What the vtable of a table says of a slot. -/
def vtableEntry (placed : List (Nat × Nat)) (offset s : Nat) : Nat :=
  match placed.lookup s with
  | some o => offset - o
  | none => 0

theorem vtable_eq (placed : List (Nat × Nat)) (start offset : Nat) :
    vtable placed start offset = (4 + 2 * slotCount placed) :: (offset - start) ::
      (List.range (slotCount placed)).map (vtableEntry placed offset) := by
  have h : (vtableLength placed - 4) / 2 = slotCount placed := by
    simp only [vtableLength, slotCount]
    omega
  simp only [vtable, h]
  rfl

theorem length_vtable (placed : List (Nat × Nat)) (start offset : Nat) :
    (vtable placed start offset).length = 2 + slotCount placed := by
  simp [vtable_eq]
  omega

theorem le_foldl_max (l : List Nat) (a : Nat) :
    a ≤ l.foldl max a ∧ ∀ n ∈ l, n ≤ l.foldl max a := by
  induction l generalizing a with
  | nil => simp
  | cons b r ih =>
    obtain ⟨h1, h2⟩ := ih (max a b)
    rw [List.foldl_cons]
    refine ⟨by omega, ?_⟩
    intro n hn
    rcases List.mem_cons.mp hn with rfl | hn
    · omega
    · exact h2 n hn

theorem foldl_max_le {l : List Nat} {a m : Nat} (ha : a ≤ m) (hl : ∀ n ∈ l, n ≤ m) :
    l.foldl max a ≤ m := by
  induction l generalizing a with
  | nil => exact ha
  | cons b r ih =>
    have hb := hl b List.mem_cons_self
    exact ih (by omega) fun n hn => hl n (List.mem_cons_of_mem _ hn)

theorem lt_slotCount {placed : List (Nat × Nat)} {s q : Nat} (h : placed.lookup s = some q) :
    s < slotCount placed := by
  have hm : s + 1 ∈ placed.map fun p => p.1 + 1 := by
    induction placed with
    | nil => cases h
    | cons p r ih =>
      obtain ⟨t, o⟩ := p
      rw [lookup_cons_eq_ite] at h
      by_cases ht : t = s
      · simp [ht]
      · rw [if_neg ht] at h
        exact List.mem_cons_of_mem _ (ih h)
  have := (le_foldl_max _ 0).2 _ hm
  simp only [slotCount]
  omega

/-- The most slots that a table may have, and the bound on them, for its vtable to have room for
every place in it. -/
def slotLimit : Nat :=
  0x1000

theorem slotCount_le {placed : List (Nat × Nat)} (h : ∀ s ∈ placed.map (·.1), s < slotLimit) :
    slotCount placed ≤ slotLimit := by
  apply foldl_max_le (Nat.zero_le _)
  intro n hn
  obtain ⟨p, hp, rfl⟩ := List.mem_map.mp hn
  exact h p.1 (List.mem_map_of_mem hp)

/-- The bytes of a vtable. -/
def vtableBytes (vt : List Nat) : List UInt8 :=
  vt.flatMap fun n => LittleEndian.encode 2 n

theorem length_vtableBytes (vt : List Nat) : (vtableBytes vt).length = 2 * vt.length := by
  simp [vtableBytes, List.length_flatMap, List.map_const', Nat.mul_comm]

/-- Every vtable that the writer remembers stands where it says. -/
def Sound (w : Writer) : Prop :=
  ∀ vt o, (vt, o) ∈ w.vtables → Holds w.bytes o (vtableBytes vt) ∧ o % 2 = 0

theorem Sound.empty : empty.Sound := by
  intro vt o h
  cases h

/-- A write that adds no vtable keeps the writer sound. -/
theorem Sound.of_suffix {w w' : Writer} (h : w.Sound) (hs : w.bytes <:+ w'.bytes)
    (hv : w'.vtables = w.vtables) : w'.Sound := by
  intro vt o hm
  rw [hv] at hm
  obtain ⟨hh, ho⟩ := h vt o hm
  exact ⟨hh.of_suffix hs, ho⟩

/-! ## Tables -/

/-- A table that was written in front of a buffer of size `start`, by distances from the end: the
places of its cells, its own offset, and the offset of its vtable. -/
structure Tabled (buffer : List UInt8) (start : Nat) (cs : List (Nat × Cell))
    (placed : List (Nat × Nat)) (offset vtableOffset : Nat) : Prop where
  cells : Placed buffer start cs placed
  before : ∀ s q, placed.lookup s = some q → q + 4 ≤ offset
  start_le : start + 4 ≤ offset
  offset_le : offset ≤ start + 7 * cs.length + 7
  aligned : offset % 4 = 0
  vtable_aligned : vtableOffset % 2 = 0
  distance : Holds buffer offset (Writer.distance (vtableOffset - offset))
  vtable : Holds buffer vtableOffset (vtableBytes (Writer.vtable placed start offset))

theorem Tabled.of_suffix {buffer larger : List UInt8} {start offset vtableOffset : Nat}
    {cs : List (Nat × Cell)} {placed : List (Nat × Nat)}
    (h : Tabled buffer start cs placed offset vtableOffset) (hs : buffer <:+ larger) :
    Tabled larger start cs placed offset vtableOffset :=
  { h with
    cells := h.cells.of_suffix hs
    distance := h.distance.of_suffix hs
    vtable := h.vtable.of_suffix hs }

/-- The cells of a table in the order in which they are put into the buffer. -/
def inOrder (cs : List (Nat × Cell)) : List (Nat × Cell) :=
  cs.mergeSort fun a b => a.1 ≤ b.1

theorem perm_inOrder (cs : List (Nat × Cell)) : (inOrder cs).Perm cs :=
  List.mergeSort_perm _ _

theorem lookup_inOrder {cs : List (Nat × Cell)} (h : (cs.map (·.1)).Nodup) (s : Nat) :
    (inOrder cs).lookup s = cs.lookup s :=
  (lookup_perm (perm_inOrder cs).symm h s).symm

theorem slot_lt_of_mem_inOrder {cs : List (Nat × Cell)} (h : ∀ s ∈ cs.map (·.1), s < slotLimit) :
    ∀ s ∈ (inOrder cs).map (·.1), s < slotLimit := by
  intro s hm
  rw [((perm_inOrder cs).map _).mem_iff] at hm
  exact h s hm

/-- Distinct slots below a bound are few. -/
theorem length_inOrder_le {cs : List (Nat × Cell)} (h : (cs.map (·.1)).Nodup)
    (hs : ∀ s ∈ cs.map (·.1), s < slotLimit) : (inOrder cs).length ≤ slotLimit := by
  have hsub : cs.map (·.1) ⊆ List.range slotLimit := fun s hm => List.mem_range.mpr (hs s hm)
  have hle := h.length_le_of_subset hsub
  rw [List.length_range, List.length_map] at hle
  rw [(perm_inOrder cs).length_eq]
  exact hle

/-- Cells in distinct slots have one order only. -/
theorem inOrder_eq {cs sorted : List (Nat × Cell)} (hp : sorted.Perm cs)
    (hs : (sorted.map (·.1)).Pairwise (· < ·)) : inOrder cs = sorted := by
  have hn : (sorted.map (·.1)).Nodup := hs.imp Nat.ne_of_lt
  have hperm : (inOrder cs).Perm sorted := (perm_inOrder cs).trans hp.symm
  have hfirst : (inOrder cs).Pairwise fun a b => decide (a.1 ≤ b.1) = true :=
    List.pairwise_mergeSort (fun a b c => by simpa using Nat.le_trans)
      (fun a b => by simpa using Nat.le_total a.1 b.1) cs
  have hsecond : sorted.Pairwise fun a b => decide (a.1 ≤ b.1) = true :=
    (List.pairwise_map.mp hs).imp fun h => decide_eq_true (Nat.le_of_lt h)
  refine hperm.eq_of_pairwise (fun a b ha hb hle hge => ?_) hfirst hsecond
  exact List.inj_on_of_nodup_map hn (hperm.mem_iff.mp ha) hb
    (Nat.le_antisymm (of_decide_eq_true hle) (of_decide_eq_true hge))

/-- The buffer of a table up to the distance to its vtable. -/
def withCells (w : Writer) (cs : List (Nat × Cell)) : Writer :=
  (w.cells (inOrder cs)).1.align 4 4

/-- The places of the cells in it. -/
def places (w : Writer) (cs : List (Nat × Cell)) : List (Nat × Nat) :=
  (w.cells (inOrder cs)).2

/-- Puts the distance to the vtable in front of the cells of a table, and the vtable unless there is one like it. -/
def closeTable (v : Writer) (placed : List (Nat × Nat)) (start : Nat) : Writer × Nat :=
  let vt := vtable placed start (v.size + 4)
  match v.vtables.lookup vt with
  | some o => (v.prepend (distance (o - (v.size + 4 : Nat))), v.size + 4)
  | none =>
    let bs := vtableBytes vt
    let u := (v.prepend (distance bs.length)).prepend bs
    ({ u with vtables := (vt, u.size) :: u.vtables }, v.size + 4)

theorem table_eq (w : Writer) (cs : List (Nat × Cell)) :
    w.table cs = (w.withCells cs).closeTable (w.places cs) w.size :=
  rfl

/-- Writes a table of cells that are in order already. -/
def tableInOrder (w : Writer) (cs : List (Nat × Cell)) : Writer × Nat :=
  ((w.cells cs).1.align 4 4).closeTable (w.cells cs).2 w.size

/-- The order in which the cells of a table are given does not matter. -/
theorem table_eq_tableInOrder (w : Writer) {cs sorted : List (Nat × Cell)} (hp : sorted.Perm cs)
    (hs : (sorted.map (·.1)).Pairwise (· < ·)) : w.table cs = w.tableInOrder sorted := by
  rw [← inOrder_eq hp hs]
  rfl

/-- What stands in the buffer of a table before the distance to its vtable. -/
structure Ready (w v : Writer) (cs : List (Nat × Cell)) (placed : List (Nat × Nat)) : Prop where
  suffix : w.bytes <:+ v.bytes
  vtables : v.vtables = w.vtables
  cells : Placed v.bytes w.size cs placed
  aligned : v.size % 4 = 0
  le_size : w.size ≤ v.size
  size_le : v.size ≤ w.size + 7 * cs.length + 3

theorem ready_withCells (w : Writer) (cs : List (Nat × Cell)) :
    Ready w (w.withCells cs) (inOrder cs) (w.places cs) := by
  obtain ⟨hp, hs, hv, hl⟩ := w.placed_cells (inOrder cs)
  have hsa := suffix_align (w.cells (inOrder cs)).1 4 4
  have hsize : (w.withCells cs).size = _ := size_align (w.cells (inOrder cs)).1 4 4
  have hgap := gap_four_lt ((w.cells (inOrder cs)).1.size + 4)
  have hmod := add_gap_four ((w.cells (inOrder cs)).1.size + 4)
  have hlen := hs.length_le
  rw [← size_eq, ← size_eq] at hlen
  exact ⟨hs.trans hsa, hv, hp.of_suffix hsa, by omega, by omega, by omega⟩

theorem length_distance (d : Int) : (distance d).length = 4 := by
  simp [distance]

/-- A table is complete once the distance to its vtable stands in front of its cells and the vtable
stands in the buffer. -/
theorem Ready.tabled {w v : Writer} {cs : List (Nat × Cell)} {placed : List (Nat × Nat)}
    (h : Ready w v cs placed) {buffer : List UInt8} {vtableOffset : Nat}
    (hs : distance (vtableOffset - (v.size + 4 : Nat)) ++ v.bytes <:+ buffer)
    (hv : Holds buffer vtableOffset (vtableBytes (Writer.vtable placed w.size (v.size + 4))))
    (hm : vtableOffset % 2 = 0) :
    Tabled buffer w.size cs placed (v.size + 4) vtableOffset := by
  have hlen : (distance (vtableOffset - (v.size + 4 : Nat)) ++ v.bytes).length = v.size + 4 := by
    rw [List.length_append, length_distance, ← v.size_eq, Nat.add_comm]
  have hd := Holds.front (distance (vtableOffset - (v.size + 4 : Nat))) v.bytes
  rw [hlen] at hd
  have ha := h.aligned
  have hl := h.size_le
  exact {
    cells := h.cells.of_suffix ((List.suffix_append _ _).trans hs)
    before := fun s q hq => by
      have := h.cells.le_length hq
      rw [← v.size_eq] at this
      omega
    start_le := by
      have := h.le_size
      omega
    offset_le := by omega
    aligned := by omega
    vtable_aligned := hm
    distance := hd.of_suffix hs
    vtable := hv }

theorem tabled_table (w : Writer) (cs : List (Nat × Cell)) (hw : w.Sound) :
    w.bytes <:+ (w.table cs).1.bytes ∧ (w.table cs).1.Sound ∧
      ∃ placed vtableOffset,
        Tabled (w.table cs).1.bytes w.size (inOrder cs) placed (w.table cs).2 vtableOffset := by
  have hr := w.ready_withCells cs
  have hsound : (w.withCells cs).Sound := hw.of_suffix hr.suffix hr.vtables
  rw [table_eq]
  generalize w.withCells cs = v at hr hsound
  generalize w.places cs = placed at hr
  dsimp only [closeTable]
  generalize hvt : vtable placed w.size (v.size + 4) = vt
  cases hl : v.vtables.lookup vt with
  | some o =>
    -- the vtable was written with an earlier table
    obtain ⟨hh, ho⟩ := hsound vt o (mem_of_lookup hl)
    have hs : v.bytes <:+ (v.prepend (distance (o - (v.size + 4 : Nat)))).bytes :=
      suffix_prepend _ _
    refine ⟨hr.suffix.trans hs, hsound.of_suffix hs rfl, placed, o, ?_⟩
    exact hr.tabled List.suffix_rfl (hvt ▸ hh.of_suffix hs) ho
  | none =>
    -- the vtable goes in front of the table
    have hu := holds_prepend (v.prepend (distance (vtableBytes vt).length)) (vtableBytes vt)
    have hsz : ((v.prepend (distance (vtableBytes vt).length)).prepend (vtableBytes vt)).size
        = (vtableBytes vt).length + (4 + v.size) := by
      simp [prepend, length_distance]
    have hmod := hr.aligned
    have hlen := length_vtableBytes vt
    have hs := (suffix_prepend v (distance (vtableBytes vt).length)).trans
      (suffix_prepend _ (vtableBytes vt))
    have hd : (((vtableBytes vt).length + (4 + v.size) : Nat) : Int) - (v.size + 4 : Nat)
        = (vtableBytes vt).length := by omega
    refine ⟨hr.suffix.trans hs, ?_, placed, (vtableBytes vt).length + (4 + v.size), ?_⟩
    · intro vt' o hm
      rcases List.mem_cons.mp hm with he | hm
      · cases he
        exact ⟨hu, by omega⟩
      · exact hsound.of_suffix hs rfl vt' o hm
    · refine hr.tabled ?_ ?_ (by omega)
      · rw [hd]
        exact suffix_prepend (v.prepend (distance (vtableBytes vt).length)) (vtableBytes vt)
      · rw [hvt, ← hsz]
        exact hu

/-! ## How much is written -/

/-- The bytes that cells, the gaps between them and a vtable for their slots take at most. -/
def cellsRoom (cs : List (Nat × Cell)) : Nat :=
  cs.foldr (fun c n => 2 * c.1 + 9 + n) 0

theorem cellsRoom_cons (c : Nat × Cell) (cs : List (Nat × Cell)) : cellsRoom (c :: cs) = 2 * c.1 + 9 + cellsRoom cs :=
  rfl

theorem le_cellsRoom (cs : List (Nat × Cell)) :
    7 * cs.length ≤ cellsRoom cs ∧ ∀ c ∈ cs, 7 * cs.length + 2 * (c.1 + 1) ≤ cellsRoom cs := by
  induction cs with
  | nil => simp [cellsRoom]
  | cons c cs ih =>
    obtain ⟨hcells, hslots⟩ := ih
    rw [cellsRoom_cons, List.length_cons]
    refine ⟨by omega, fun d hd => ?_⟩
    rcases List.mem_cons.mp hd with rfl | hd
    · omega
    · have hslot := hslots d hd
      omega

theorem size_table_le (w : Writer) (cs : List (Nat × Cell)) :
    (w.table cs).1.size ≤ w.size + cellsRoom cs + 11 := by
  have hr := w.ready_withCells cs
  obtain ⟨hcells, hslots⟩ := le_cellsRoom cs
  have hcount : slotCount (w.places cs) ≤ (cellsRoom cs - 7 * cs.length) / 2 := by
    refine foldl_max_le (Nat.zero_le _) fun n hn => ?_
    obtain ⟨p, hp, rfl⟩ := List.mem_map.mp hn
    have hmem := List.mem_map_of_mem (f := Prod.fst) hp
    rw [hr.cells.slots_eq, ((perm_inOrder cs).map _).mem_iff] at hmem
    obtain ⟨c, hc, hslot⟩ := List.mem_map.mp hmem
    have hle := hslots c hc
    omega
  have hsize := hr.size_le
  rw [(perm_inOrder cs).length_eq] at hsize
  have hvtable := length_vtable (w.places cs) w.size ((w.withCells cs).size + 4)
  rw [table_eq]
  dsimp only [closeTable]
  split
  · rw [size_prepend, length_distance]
    omega
  · show ((Writer.prepend _ _).prepend (vtableBytes _)).size ≤ _
    rw [size_prepend, size_prepend, length_distance, length_vtableBytes]
    omega

/-! ## Reading a written table -/

/-- The size that no buffer reaches. -/
def sizeLimit : Nat :=
  0x80000000

/-- A distance between two places in a buffer is read as it was written. -/
theorem bmod_distance {d : Int} (hl : -0x80000000 ≤ d) (hu : d < 0x80000000) :
    Int.bmod ((d % 0x100000000).toNat : Nat) 0x100000000 = d := by
  rw [Int.toNat_of_nonneg (Int.emod_nonneg _ (by decide)), Int.bmod_def]
  omega

/-- A number of four bytes is written again as the distance that it is read as. -/
theorem distance_bmod {n : Nat} (hn : n < Nat.pow 256 4) :
    -0x80000000 ≤ Int.bmod n 0x100000000 ∧ Int.bmod n 0x100000000 < 0x80000000 ∧
      distance (Int.bmod n 0x100000000) = LittleEndian.encode 4 n := by
  have hlt : n < 0x100000000 := hn
  rw [distance, Int.bmod_def]
  exact ⟨by omega, by omega, congrArg (LittleEndian.encode 4) (by omega)⟩

section Tabled

variable {buffer : List UInt8} {start offset vtableOffset p : Nat} {cs : List (Nat × Cell)}
  {placed : List (Nat × Nat)}

theorem Tabled.bmod_eq (h : Tabled buffer start cs placed offset vtableOffset)
    (hp : p + offset = buffer.length) (hb : buffer.length < sizeLimit) :
    Int.bmod (Image.numberAt buffer.toArray 4 p) 0x100000000 = vtableOffset - offset := by
  have hlt : ((vtableOffset - offset : Int) % 0x100000000).toNat < Nat.pow 256 4 := by
    show _ < 0x100000000
    omega
  have hv := h.vtable.le_length
  have ho := h.distance.le_length
  simp only [sizeLimit] at hb
  rw [h.distance.numberAt hlt hp, bmod_distance (by omega) (by omega)]

theorem Tabled.vtable_eq (h : Tabled buffer start cs placed offset vtableOffset)
    (hp : p + offset = buffer.length) (hb : buffer.length < sizeLimit) :
    (Table.vtable ⟨buffer.toArray, p⟩) + vtableOffset = buffer.length := by
  have hv := h.vtable.le_length
  show ((p : Int) - Int.bmod (Image.numberAt buffer.toArray 4 p) 0x100000000).toNat + _ = _
  rw [h.bmod_eq hp hb]
  omega

/-- Every number of a vtable fits two bytes. -/
theorem Tabled.lt_of_mem (h : Tabled buffer start cs placed offset vtableOffset)
    (hs : ∀ s ∈ cs.map (·.1), s < slotLimit) (hc : cs.length ≤ slotLimit) {n : Nat}
    (hn : n ∈ Writer.vtable placed start offset) : n < Nat.pow 256 2 := by
  have hpow : Nat.pow 256 2 = 65536 := rfl
  have hcount : slotCount placed ≤ slotLimit := slotCount_le (by rwa [h.cells.slots_eq])
  have hoff := h.offset_le
  simp only [slotLimit] at hcount hc
  rw [Writer.vtable_eq, List.mem_cons, List.mem_cons, List.mem_map] at hn
  rcases hn with rfl | rfl | ⟨s, -, rfl⟩
  · omega
  · omega
  · unfold vtableEntry
    cases hl : placed.lookup s with
    | none =>
      show 0 < _
      omega
    | some q =>
      cases hcell : cs.lookup s with
      | none => rw [h.cells.lookup_none hcell] at hl; cases hl
      | some c =>
        obtain ⟨q', hq', hle, -⟩ := h.cells.lookup_some hcell
        rw [hl] at hq'
        cases hq'
        dsimp only
        omega

theorem Tabled.numberAt_vtable (h : Tabled buffer start cs placed offset vtableOffset)
    (hp : p + offset = buffer.length) (hb : buffer.length < sizeLimit)
    (hs : ∀ s ∈ cs.map (·.1), s < slotLimit) (hc : cs.length ≤ slotLimit) {k n : Nat}
    (hk : (Writer.vtable placed start offset)[k]? = some n) :
    Image.numberAt buffer.toArray 2 (Table.vtable ⟨buffer.toArray, p⟩ + 2 * k) = n := by
  have hh := h.vtable.flatMap (fun n => LittleEndian.length_encode 2 n) hk
  have hv := h.vtable_eq hp hb
  have hl := h.vtable.length_le
  have hlt := (List.getElem?_eq_some_iff.mp hk).1
  rw [length_vtableBytes] at hl
  exact hh.numberAt (h.lt_of_mem hs hc (List.mem_of_getElem? hk)) (by omega)

theorem Tabled.vtableLength_eq (h : Tabled buffer start cs placed offset vtableOffset)
    (hp : p + offset = buffer.length) (hb : buffer.length < sizeLimit)
    (hs : ∀ s ∈ cs.map (·.1), s < slotLimit) (hc : cs.length ≤ slotLimit) :
    Table.vtableLength ⟨buffer.toArray, p⟩ = 4 + 2 * slotCount placed := by
  have hk : (Writer.vtable placed start offset)[0]? = some (4 + 2 * slotCount placed) := by
    rw [Writer.vtable_eq, List.getElem?_cons_zero]
  have hn := h.numberAt_vtable hp hb hs hc hk
  rwa [Nat.mul_zero, Nat.add_zero] at hn

theorem Tabled.length_eq (h : Tabled buffer start cs placed offset vtableOffset)
    (hp : p + offset = buffer.length) (hb : buffer.length < sizeLimit)
    (hs : ∀ s ∈ cs.map (·.1), s < slotLimit) (hc : cs.length ≤ slotLimit) :
    Table.length ⟨buffer.toArray, p⟩ = offset - start := by
  have hk : (Writer.vtable placed start offset)[1]? = some (offset - start) := by
    rw [Writer.vtable_eq, List.getElem?_cons_succ, List.getElem?_cons_zero]
  have hn := h.numberAt_vtable hp hb hs hc hk
  rwa [Nat.mul_one] at hn

/-- A reader finds a slot where its cell was put. -/
theorem Tabled.slot?_eq (h : Tabled buffer start cs placed offset vtableOffset)
    (hp : p + offset = buffer.length) (hb : buffer.length < sizeLimit)
    (hs : ∀ s ∈ cs.map (·.1), s < slotLimit) (hc : cs.length ≤ slotLimit) (s : Nat) :
    Table.slot? ⟨buffer.toArray, p⟩ s = (placed.lookup s).map (buffer.length - ·) := by
  have hlen := h.vtableLength_eq hp hb hs hc
  simp only [Table.vtableLength] at hlen
  simp only [Table.slot?, hlen]
  by_cases hlt : s < slotCount placed
  · have hk : (Writer.vtable placed start offset)[s + 2]? = some (vtableEntry placed offset s) := by
      simp [Writer.vtable_eq, List.getElem?_range hlt]
    have hplace := h.numberAt_vtable hp hb hs hc hk
    have hpos : 2 * (s + 2) = 4 + 2 * s := by omega
    rw [hpos] at hplace
    rw [if_neg (by omega), hplace]
    unfold vtableEntry
    cases hl : placed.lookup s with
    | none => simp
    | some q =>
      have hq := h.before s q hl
      have hne : ¬ offset - q = 0 := by omega
      simp only [hne, if_false, Option.map_some, Option.some.injEq]
      omega
  · have hl : placed.lookup s = none := by
      cases hl : placed.lookup s with
      | none => rfl
      | some q => exact absurd (lt_slotCount hl) hlt
    rw [if_pos (by omega), hl]
    rfl

/-- The cell of a slot stands where a reader finds the slot, in front of what was there before the table. -/
theorem Tabled.exists_cell (h : Tabled buffer start cs placed offset vtableOffset)
    (hp : p + offset = buffer.length) (hb : buffer.length < sizeLimit)
    (hs : ∀ s ∈ cs.map (·.1), s < slotLimit) (hc : cs.length ≤ slotLimit) {s : Nat} {c : Cell}
    (hcell : cs.lookup s = some c) :
    ∃ q, placed.lookup s = some q ∧ Table.slot? ⟨buffer.toArray, p⟩ s = some (buffer.length - q) ∧
      start + c.width ≤ q ∧ q + 4 ≤ offset ∧ q % c.width = 0 ∧ Holds buffer q (c.bytes q) := by
  obtain ⟨q, hq, hle, hmod, hh⟩ := h.cells.lookup_some hcell
  refine ⟨q, hq, ?_, hle, h.before s q hq, hmod, hh⟩
  rw [h.slot?_eq hp hb hs hc, hq, Option.map_some]

/-- Slots without a cell are not found. -/
theorem Tabled.slot?_eq_none (h : Tabled buffer start cs placed offset vtableOffset)
    (hp : p + offset = buffer.length) (hb : buffer.length < sizeLimit)
    (hs : ∀ s ∈ cs.map (·.1), s < slotLimit) (hc : cs.length ≤ slotLimit) {s : Nat}
    (hcell : cs.lookup s = none) : Table.slot? ⟨buffer.toArray, p⟩ s = none := by
  rw [h.slot?_eq hp hb hs hc, h.cells.lookup_none hcell, Option.map_none]

/-- A written table lies in good order in every larger buffer. -/
theorem Tabled.framed (h : Tabled buffer start cs placed offset vtableOffset)
    (hp : p + offset = buffer.length) (hb : buffer.length < sizeLimit)
    (hs : ∀ s ∈ cs.map (·.1), s < slotLimit) (hc : cs.length ≤ slotLimit) {origin : Nat}
    (ho : (origin + buffer.length) % 4 = 0) : Table.Framed origin ⟨buffer.toArray, p⟩ := by
  have hvt := h.vtable_eq hp hb
  have hvl := h.vtableLength_eq hp hb hs hc
  have hl := h.length_eq hp hb hs hc
  have hle := h.vtable.length_le
  rw [length_vtableBytes, length_vtable] at hle
  have hvo := h.vtable.le_length
  have ha := h.aligned
  have hva := h.vtable_aligned
  have hst := h.start_le
  refine ⟨?_, ?_, ?_, ?_, ?_, ?_, ?_, ?_⟩
  · dsimp only
    omega
  · dsimp only
    rw [h.bmod_eq hp hb]
    omega
  · omega
  · omega
  · omega
  · rw [List.size_toArray]
    omega
  · omega
  · rw [List.size_toArray]
    dsimp only
    omega

end Tabled

/-- A reference leads to the place of its offset, if something was there when it was written. -/
theorem follow_reference {buffer : List UInt8} {start offset q i : Nat} (hle : offset ≤ start)
    (hh : Holds buffer q (Cell.bytes q (.reference offset))) (hq : start + 4 ≤ q)
    (hi : i + q = buffer.length) (hb : buffer.length < sizeLimit) :
    Image.follow buffer.toArray i = buffer.length - offset := by
  simp only [sizeLimit] at hb
  have hn := hh.numberAt (show q - offset < 0x100000000 by omega) hi
  rw [Image.follow, hn]
  omega

section Listed

variable {w w' : Writer} {offsets : List Nat} {buffer : List UInt8} {p : Nat}

/-- A vector of references is read with its length. -/
theorem Listed.numberAt_eq (h : Listed w w' offsets) (hs : w'.bytes <:+ buffer) (hb : buffer.length < sizeLimit)
    (hp : p + w'.size = buffer.length) : Image.numberAt buffer.toArray 4 p = offsets.length := by
  have hle := h.le_size
  simp only [sizeLimit] at hb
  exact (h.length.of_suffix hs).numberAt (show _ < 0x100000000 by omega) hp

/-- Each reference is read as a distance. -/
theorem Listed.numberAt_element (h : Listed w w' offsets) (hs : w'.bytes <:+ buffer)
    (hb : buffer.length < sizeLimit) (hp : p + w'.size = buffer.length) {k o : Nat} (hk : offsets[k]? = some o) :
    Image.numberAt buffer.toArray 4 (p + 4 + 4 * k) = w'.size - (4 + 4 * k) - o := by
  have hle := h.le_size
  have hlt := (List.getElem?_eq_some_iff.mp hk).1
  simp only [sizeLimit] at hb
  exact ((h.holds k o hk).of_suffix hs).numberAt (show _ < 0x100000000 by omega) (by omega)

end Listed

end Writer

end NetPack.Buffer
