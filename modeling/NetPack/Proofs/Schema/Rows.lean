import NetPack.Proofs.Schema.Conforms
import NetPack.Schema.Encode

/-!
# Tables that are given by rows

The tables of a network are written as lists of rows, one row for each field, and a row is empty if the
field is left out. If the slots of the rows are distinct and each row is one that the kind of table
allows (`Rows`), then a slot of the table holds what its own row holds (`Rows.entry?_eq`), and the table
conforms as soon as its union does (`Rows.conforms`).
-/

namespace NetPack.Schema

open Buffer (Entry Fields Object Objects TableLike)
open Buffer (RowFor lookup_flatten_eq mem_of_lookup sublist_slots)

/-! ## Rows -/

/-- A row that a kind of table may have for a slot. Nothing is asked of the table of a union. -/
inductive RowOf (t : TableType) (s : Nat) : Row → Prop
  | absent {f : FieldType} (field : t.field? s = some f) : RowOf t s []
  | byte (field : t.field? s = some .byte) (v : UInt8) : RowOf t s [(s, .byte v)]
  | word (field : t.field? s = some .word) (v : UInt32) : RowOf t s [(s, .word v)]
  | text (field : t.field? s = some .text) (cs : List Char) :
      RowOf t s [(s, .child (.text (Text.utf8 cs)))]
  | words (field : t.field? s = some .words) (ws : List UInt32) : RowOf t s [(s, .child (.words ws))]
  | table {t' : TableType} (field : t.field? s = some (.table t')) {fs : Fields}
      (conforms : Conforms t' fs) : RowOf t s [(s, .child (.table fs))]
  | tables {t' : TableType} (field : t.field? s = some (.tables t')) {os : Objects}
      (all : os.toList = os.tables.map Object.table) (conforms : ∀ fs ∈ os.tables, Conforms t' fs) :
      RowOf t s [(s, .child (.tables os))]
  | member {kind : Nat} {u : UnionType} (field : t.field? s = some (.member kind u)) (fs : Fields) :
      RowOf t s [(s, .child (.table fs))]

/-- Rows with their slots, no slot twice. -/
structure Rows (t : TableType) (slots : List Nat) (rows : List Row) : Prop where
  nodup : slots.Nodup
  rowOf : List.Forall₂ (RowOf t) slots rows

section RowOf

variable {t : TableType} {s : Nat}

theorem byteField_row (field : t.field? s = some .byte) (v : UInt8) : RowOf t s (byteField s v) := by
  rw [byteField]
  split
  · exact .absent field
  · exact .byte field v

theorem boolField_row (field : t.field? s = some .byte) (v : Bool) : RowOf t s (boolField s v) :=
  byteField_row field _

theorem wordField_row (field : t.field? s = some .word) (v : UInt32) :
    RowOf t s (wordField s v) := by
  rw [wordField]
  split
  · exact .absent field
  · exact .word field v

theorem intField_row (field : t.field? s = some .word) (v : Int32) : RowOf t s (intField s v) :=
  wordField_row field _

theorem floatField_row (field : t.field? s = some .word) (v : Single) :
    RowOf t s (floatField s v) := by
  rw [floatField]
  split
  · exact .absent field
  · exact .word field v.bits

theorem padsField_row (field : t.field? s = some .words) (p : Padding) :
    RowOf t s (padsField s p) := by
  cases p with
  | same => exact .absent field
  | fixed top left bottom right => exact .words field _

theorem nonemptyField_row (field : t.field? s = some .words) {α : Type} {list : List α → Object}
    (hl : ∀ vs, ∃ ws, list vs = .words ws) (vs : List α) : RowOf t s (nonemptyField s list vs) := by
  rw [nonemptyField]
  split
  · exact .absent field
  · obtain ⟨ws, hw⟩ := hl vs
    rw [hw]
    exact .words field ws

theorem memberField_row {kind : Nat} {u : UnionType} {o : Object} {fs : Fields}
    (field : t.field? s = some (.member kind u)) (ho : o = .table fs) :
    RowOf t s (childField s o) := by
  rw [ho]
  exact .member field fs

theorem RowOf.rowFor {r : Row} (h : RowOf t s r) : RowFor s r := by
  intro f hf
  cases h with
  | absent => cases hf
  | _ =>
    obtain rfl := List.mem_singleton.mp hf
    exact ⟨rfl, rfl⟩

end RowOf

/-! ## Entries -/

section Rows

variable {t : TableType} {slots : List Nat} {rows : List Row}

theorem rowOf_of_mem (h : List.Forall₂ (RowOf t) slots rows) {f : Nat × Entry} (hf : f ∈ rows.flatten) :
    RowOf t f.1 [f] := by
  obtain ⟨r, hr, hf⟩ := List.mem_flatten.mp hf
  obtain ⟨s, -, hrow⟩ := exists_of_mem_right h hr
  obtain ⟨rfl, rfl⟩ := hrow.rowFor f hf
  exact hrow

theorem Rows.rowsFor (h : Rows t slots rows) : List.Forall₂ RowFor slots rows :=
  h.rowOf.imp fun _ _ hr => hr.rowFor

/-- A slot holds what its row holds. -/
theorem Rows.entry?_eq (h : Rows t slots rows) {i s : Nat} {r : Row} (hs : slots[i]? = some s)
    (hr : rows[i]? = some r) : Fields.entry? (Fields.ofList rows.flatten) s = r.lookup s := by
  rw [Fields.entry?_eq_lookup, Buffer.Fields.toList_ofList]
  exact lookup_flatten_eq h.rowsFor h.nodup hs hr

theorem Rows.rowOf_entry (h : Rows t slots rows) {s : Nat} {e : Entry}
    (he : Fields.entry? (Fields.ofList rows.flatten) s = some e) : RowOf t s [(s, e)] := by
  rw [Fields.entry?_eq_lookup, Buffer.Fields.toList_ofList] at he
  exact rowOf_of_mem h.rowOf (mem_of_lookup he)

/-! ## Conformance -/

/-- The table of a union conforms to the kind that is told, and it is absent if no kind is. -/
def UnionsConform (t : TableType) (fs : Fields) : Prop :=
  ∀ s kind u, t.field? s = some (.member kind u) →
    (byteAt fs kind = 0 ∧ fs.entry? s = none) ∨
      ∃ t' fs', u.member? (byteAt fs kind) = some t' ∧ fs.entry? s = some (.child (.table fs')) ∧
        Conforms t' fs'

theorem Rows.inOrder (h : Rows t slots rows) (hu : UnionsConform t (Fields.ofList rows.flatten)) :
    InOrder t (Fields.ofList rows.flatten) where
  nodup := by
    rw [Buffer.Fields.toList_ofList]
    exact h.nodup.sublist (sublist_slots h.rowsFor)
  has := by
    intro s e he
    cases h.rowOf_entry he with
    | byte field v => exact ⟨_, field, .byte v⟩
    | word field v => exact ⟨_, field, .word v⟩
    | text field cs => exact ⟨_, field, .text _⟩
    | words field ws => exact ⟨_, field, .words ws⟩
    | table field conforms => exact ⟨_, field, .table _ _⟩
    | tables field all conforms => exact ⟨_, field, .tables _ all⟩
    | member field fs => exact ⟨_, field, .member _ _ fs⟩
  text := by
    intro s bs he
    cases h.rowOf_entry he with
    | text field cs => exact ⟨cs, rfl⟩
  member := by
    intro s kind u hf
    rcases hu s kind u hf with hnone | ⟨t', fs', hk, he, -⟩
    · exact .inl hnone
    · exact .inr ⟨t', fs', hk, he⟩

theorem entry?_of_table? {fs fs' : Fields} {s : Nat} (h : TableLike.table? fs s = some fs') :
    fs.entry? s = some (.child (.table fs')) := by
  simp only [TableLike.table?] at h
  split at h
  · cases h
    assumption
  · cases h

theorem entry?_of_tables? {fs : Fields} {s : Nat} {fss : List Fields}
    (h : TableLike.tables? fs s = some fss) :
    ∃ os : Objects, fs.entry? s = some (.child (.tables os)) ∧ os.tables = fss := by
  simp only [TableLike.tables?] at h
  split at h
  · cases h
    exact ⟨_, by assumption, rfl⟩
  · cases h

theorem Rows.conforms (h : Rows t slots rows)
    (hu : UnionsConform t (Fields.ofList rows.flatten)) : Conforms t (Fields.ofList rows.flatten) := by
  refine .intro (h.inOrder hu) fun t' fs' ha => ?_
  cases ha with
  | table field found =>
    cases h.rowOf_entry (entry?_of_table? found) with
    | table field' conforms =>
      cases field.symm.trans field'
      exact conforms
    | member field' fs => cases field.symm.trans field'
  | element field found mem =>
    obtain ⟨os, he, rfl⟩ := entry?_of_tables? found
    cases h.rowOf_entry he with
    | tables field' all conforms =>
      cases field.symm.trans field'
      exact conforms _ mem
  | member field known found =>
    have he := entry?_of_table? found
    rcases hu _ _ _ field with ⟨-, hnone⟩ | ⟨t'', fs'', hk, he', hc⟩
    · cases hnone.symm.trans he
    · cases he.symm.trans he'
      cases known.symm.trans hk
      exact hc

end Rows

end NetPack.Schema
