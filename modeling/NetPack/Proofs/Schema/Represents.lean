import NetPack.Proofs.Buffer.Placement
import NetPack.Proofs.Schema.Reading
import NetPack.Proofs.Schema.Record

/-!
# What a buffer represents

A buffer that is well formed for the format need not look like those that are written here: tables, vtables,
texts and vectors may stand anywhere, fields in any order, vtables may be shared, be cut short, or go on with
slots that the format does not have, and the byte of a union may have no meaning. `Represents` says of such a
buffer, byte by byte and apart from any reader, that it lays out a logical model. A reader sees the model and
nothing else: the content of the buffer is that of the model (`Represents.content_eq`), the tables that it
reaches are those of the model, and each single answer is what the model holds (`Represents.answers`).
-/

namespace NetPack.Schema

open Buffer (Image Table TableLike Vtable mem_of_lookup)

/-! ## What a buffer lays out -/

mutual

/-- The image has at a position a table of a kind with the fields of a logical table. Nothing is said of slots
that the kind does not have, in the image or in the logical table. -/
inductive Shows (b : Image) : TableType → Nat → Record → Prop
  | intro {t : TableType} {p : Nat} {r : Record} (v : Vtable) (stands : b.TableAt p v)
      (field : ∀ s f, t.field? s = some f → Keeps b p v r f (v.place? s) (r s)) : Shows b t p r

/-- A field of the table at a position is absent, or it has a place in the table where there is what the logical
table holds, or a reference to it. The value of a union tells its kind by the byte of the union; if this byte
stands for no kind, the value may be anything. -/
inductive Keeps (b : Image) : Nat → Vtable → Record → FieldType → Option Nat → Option Value → Prop
  | absent {p : Nat} {v : Vtable} {r : Record} {f : FieldType} : Keeps b p v r f none none
  | byte {p n : Nat} {v : Vtable} {r : Record} {c : UInt8} (covers : v.Covers p n 1)
      (holds : b.HoldsAt (p + n) [c]) : Keeps b p v r .byte (some n) (some (.byte c))
  | word {p n : Nat} {v : Vtable} {r : Record} {w : UInt32} (covers : v.Covers p n 4)
      (holds : b.HoldsAt (p + n) (LittleEndian.encode 4 w.toNat)) :
      Keeps b p v r .word (some n) (some (.word w))
  | text {p n q : Nat} {v : Vtable} {r : Record} {s : String} (covers : v.Covers p n 4)
      (refers : b.Refers (p + n) q) (stands : b.TextAt q s) : Keeps b p v r .text (some n) (some (.text s))
  | words {p n q : Nat} {v : Vtable} {r : Record} {ws : List UInt32} (covers : v.Covers p n 4)
      (refers : b.Refers (p + n) q) (stands : b.WordsAt q ws) :
      Keeps b p v r .words (some n) (some (.words ws))
  | table {p n q : Nat} {v : Vtable} {r r' : Record} {t : TableType} (covers : v.Covers p n 4)
      (refers : b.Refers (p + n) q) (shows : Shows b t q r') :
      Keeps b p v r (.table t) (some n) (some (.table r'))
  | tables {p n q : Nat} {v : Vtable} {r : Record} {rs : List Record} {t : TableType} {targets : List Nat}
      (covers : v.Covers p n 4) (refers : b.Refers (p + n) q) (stands : b.ReferencesAt q targets)
      (length : targets.length = rs.length)
      (shows : ∀ k (h : k < targets.length) (h' : k < rs.length), Shows b t targets[k] rs[k]) :
      Keeps b p v r (.tables t) (some n) (some (.tables rs))
  | member {p n q kind : Nat} {u : UnionType} {v : Vtable} {r r' : Record} {t : TableType}
      (covers : v.Covers p n 4) (refers : b.Refers (p + n) q)
      (known : u.kinds.lookup (r.byte kind) = some t) (shows : Shows b t q r') :
      Keeps b p v r (.member kind u) (some n) (some (.table r'))
  | unknown {p n q kind : Nat} {u : UnionType} {v : Vtable} {r : Record} {o : Value} (covers : v.Covers p n 4)
      (refers : b.Refers (p + n) q) (unknown : u.kinds.lookup (r.byte kind) = none) :
      Keeps b p v r (.member kind u) (some n) (some o)

end

/-- A buffer lays out a logical model. -/
def Represents (b : Image) (m : Record) : Prop :=
  ∃ q, b.Refers 0 q ∧ Shows b .model q m

/-- A table is shown if each field in the list of its kind is kept. -/
theorem shows_of_fields {b : Image} {t : TableType} {p : Nat} {r : Record} {v : Vtable} (stands : b.TableAt p v)
    (h : t.fields.Forall fun f => Keeps b p v r f.2 (v.place? f.1) (r f.1)) : Shows b t p r :=
  .intro v stands fun s f hf => List.forall_iff_forall_mem.mp h (s, f) (mem_of_lookup hf)

/-! ## What is read -/

/-- A field of a kind is kept, in a place and with a value that can be told apart by cases. -/
theorem Shows.keeps {x : Table} {r : Record} {t : TableType} {s : Nat} {f : FieldType}
    (h : Shows x.image t x.position r) (hf : t.field? s = some f) :
    ∃ v n? o?, x.slot? s = n?.map (x.position + ·) ∧ r s = o? ∧ Keeps x.image x.position v r f n? o? := by
  cases h with
  | intro v stands field => exact ⟨v, _, _, stands.slot?_eq s, rfl, field s f hf⟩

/-- A table of a buffer and the logical table that it lays out answer alike. -/
theorem shows_simulation : Simulation fun t (x : Table) r => Shows x.image t x.position r where
  byte h hf := by
    obtain ⟨v, n?, o?, hs, hr, hk⟩ := h.keeps hf
    simp only [TableLike.byte?, Record.byte?, hs, hr]
    cases hk with
    | absent => rfl
    | byte covers holds => rw [Option.map_some, Option.map_some, holds.byteAt]
  word h hf := by
    obtain ⟨v, n?, o?, hs, hr, hk⟩ := h.keeps hf
    simp only [TableLike.word?, Record.word?, hs, hr]
    cases hk with
    | absent => rfl
    | @word _ _ _ _ w covers holds =>
      rw [Option.map_some, Option.map_some, holds.numberAt w.toNat_lt, UInt32.ofNat_toNat]
  text h hf := by
    obtain ⟨v, n?, o?, hs, hr, hk⟩ := h.keeps hf
    rw [text?_table, hs]
    simp only [TableLike.text?, Record.text?, hr]
    cases hk with
    | absent => rfl
    | text covers refers stands =>
      rw [Option.map_some, Option.map_some, refers.follow_eq, stands.text_eq, Option.map_some]
  words h hf := by
    obtain ⟨v, n?, o?, hs, hr, hk⟩ := h.keeps hf
    rw [words?_table, hs]
    simp only [TableLike.words?, Record.words?, hr]
    cases hk with
    | absent => rfl
    | words covers refers stands => rw [Option.map_some, Option.map_some, refers.follow_eq, stands.words_eq]
  table h hf := by
    obtain ⟨v, n?, o?, hs, hr, hk⟩ := h.keeps hf
    rw [table?_table, hs]
    simp only [TableLike.table?, Record.table?, hr]
    cases hk with
    | absent => exact .none
    | table covers refers shows =>
      rw [Option.map_some, Option.map_some, refers.follow_eq]
      exact .some shows
  tables h hf := by
    obtain ⟨v, n?, o?, hs, hr, hk⟩ := h.keeps hf
    rw [tables?_table, hs]
    simp only [TableLike.tables?, Record.tables?, hr]
    cases hk with
    | absent => exact .none
    | @tables _ _ q _ _ _ _ targets covers refers stands length shows =>
      rw [Option.map_some, Option.map_some, refers.follow_eq, stands.tables_eq]
      refine .some (List.forall₂_map_left_iff.mpr ?_)
      exact List.forall₂_iff_get.mpr ⟨length, fun k h₁ h₂ => shows k h₁ h₂⟩
  member h hf hu := by
    obtain ⟨v, n?, o?, hs, hr, hk⟩ := h.keeps hf
    rw [UnionType.member?_eq_lookup] at hu
    rw [table?_table, hs]
    simp only [TableLike.table?, Record.table?, hr]
    cases hk with
    | absent => exact .none
    | member covers refers known shows =>
      cases hu.symm.trans known
      rw [Option.map_some, Option.map_some, refers.follow_eq]
      exact .some shows
    | unknown covers refers unknown => cases hu.symm.trans unknown

/-- The accessors of a table give what a logical table holds, or the default of the field if it holds nothing.
The accessor of a union gives a table exactly if the byte of the union stands for the kind that is asked for and
the union has a value, so at most one of the accessors of a union gives one. -/
structure Answers (t : TableType) (x : Table) (r : Record) : Prop where
  byte : ∀ s, t.field? s = some .byte →
    (r s = none ∧ byteAt x s = 0 ∧ boolAt x s = false) ∨
      ∃ c, r s = some (.byte c) ∧ byteAt x s = c ∧ boolAt x s = (c != 0)
  word : ∀ s, t.field? s = some .word →
    (r s = none ∧ wordAt x s = 0 ∧ intAt x s = 0 ∧ floatAt x s = .zero) ∨
      ∃ w, r s = some (.word w) ∧ wordAt x s = w ∧ intAt x s = w.toInt32 ∧ floatAt x s = ⟨w⟩
  text : ∀ s, t.field? s = some .text →
    (r s = none ∧ textAt? x s = none) ∨ ∃ str, r s = some (.text str) ∧ textAt? x s = some str
  words : ∀ s, t.field? s = some .words →
    (r s = none ∧ unsignedsAt? x s = none ∧ intsAt? x s = none ∧ floatsAt? x s = none) ∨
      ∃ ws, r s = some (.words ws) ∧ unsignedsAt? x s = some ws ∧
        intsAt? x s = some (ws.map UInt32.toInt32) ∧ floatsAt? x s = some (ws.map Single.mk)
  table : ∀ s t', t.field? s = some (.table t') →
    (r s = none ∧ TableLike.table? x s = none) ∨
      ∃ r' y, r s = some (.table r') ∧ TableLike.table? x s = some y
  tables : ∀ s t', t.field? s = some (.tables t') →
    (r s = none ∧ TableLike.tables? x s = none) ∨
      ∃ rs ys, r s = some (.tables rs) ∧ TableLike.tables? x s = some ys ∧ ys.length = rs.length
  union : ∀ s kind u, t.field? s = some (.member kind u) →
    (∀ asked, (u.table? x kind asked s).isSome ↔
      u.kinds.lookup (r.byte kind) = some asked ∧ (r s).isSome) ∧
      ∀ asked asked', (u.table? x kind asked s).isSome → (u.table? x kind asked' s).isSome → asked = asked'

theorem Keeps.isSome_eq {b : Image} {p : Nat} {v : Vtable} {r : Record} {f : FieldType} {n? : Option Nat}
    {o? : Option Value} (h : Keeps b p v r f n? o?) : n?.isSome = o?.isSome := by
  cases h <;> rfl

theorem isSome_unionTable?_iff {x : Table} {u : UnionType} {kind s : Nat} {asked : TableType} :
    (u.table? x kind asked s).isSome ↔
      u.kinds.lookup (byteAt x kind) = some asked ∧ (x.slot? s).isSome := by
  unfold UnionType.table? Schema.member?
  rw [table?_table, UnionType.member?_eq_lookup]
  by_cases hk : u.kinds.lookup (byteAt x kind) = some asked
  · rw [if_pos hk, Option.isSome_map]
    exact ⟨fun h => ⟨hk, h⟩, fun h => h.2⟩
  · rw [if_neg hk]
    exact ⟨fun h => (by cases h), fun h => absurd h.1 hk⟩

theorem Shows.answers {t : TableType} {x : Table} {r : Record} (h : Shows x.image t x.position r) :
    Answers t x r where
  byte s hf := by
    obtain ⟨v, n?, o?, -, hr, hk⟩ := h.keeps hf
    rw [boolAt, byteAt, shows_simulation.byte h hf]
    simp only [TableLike.byte?, Record.byte?, hr]
    cases hk with
    | absent => exact .inl ⟨rfl, rfl, rfl⟩
    | byte covers holds => exact .inr ⟨_, rfl, rfl, rfl⟩
  word s hf := by
    obtain ⟨v, n?, o?, -, hr, hk⟩ := h.keeps hf
    rw [floatAt, intAt, wordAt, shows_simulation.word h hf]
    simp only [TableLike.word?, Record.word?, hr]
    cases hk with
    | absent => exact .inl ⟨rfl, rfl, rfl, rfl⟩
    | word covers holds => exact .inr ⟨_, rfl, rfl, rfl, rfl⟩
  text s hf := by
    obtain ⟨v, n?, o?, -, hr, hk⟩ := h.keeps hf
    rw [shows_simulation.textAt?_eq h hf, textAt?_record, Record.text?, hr]
    cases hk with
    | absent => exact .inl ⟨rfl, rfl⟩
    | text covers refers stands => exact .inr ⟨_, rfl, rfl⟩
  words s hf := by
    obtain ⟨v, n?, o?, -, hr, hk⟩ := h.keeps hf
    rw [unsignedsAt?, intsAt?, floatsAt?, shows_simulation.words h hf]
    simp only [TableLike.words?, Record.words?, hr]
    cases hk with
    | absent => exact .inl ⟨rfl, rfl, rfl, rfl⟩
    | words covers refers stands => exact .inr ⟨_, rfl, rfl, rfl, rfl⟩
  table s t' hf := by
    obtain ⟨v, n?, o?, hs, hr, hk⟩ := h.keeps hf
    rw [table?_table, hs, hr]
    cases hk with
    | absent => exact .inl ⟨rfl, rfl⟩
    | table covers refers shows => exact .inr ⟨_, _, rfl, rfl⟩
  tables s t' hf := by
    obtain ⟨v, n?, o?, hs, hr, hk⟩ := h.keeps hf
    rw [tables?_table, hs, hr]
    cases hk with
    | absent => exact .inl ⟨rfl, rfl⟩
    | @tables _ _ q _ _ rs _ targets covers refers stands length shows =>
      rw [Option.map_some, Option.map_some, refers.follow_eq, stands.tables_eq]
      exact .inr ⟨rs, _, rfl, rfl, (List.length_map ..).trans length⟩
  union s kind u hf := by
    have hbyte : byteAt x kind = r.byte kind := shows_simulation.byteAt_eq h (field?_kind hf)
    obtain ⟨v, n?, o?, hs, hr, hk⟩ := h.keeps hf
    refine ⟨fun asked => ?_, fun asked asked' ha ha' => ?_⟩
    · rw [isSome_unionTable?_iff, hbyte, hs, Option.isSome_map, hr, hk.isSome_eq]
    · have hasked := (isSome_unionTable?_iff.mp ha).1
      have hasked' := (isSome_unionTable?_iff.mp ha').1
      exact Option.some.inj (hasked.symm.trans hasked')

/-! ## Models -/

namespace Represents

variable {b : Image} {m : Record} (h : Represents b m)

include h

theorem root : Shows (Table.root b).image .model (Table.root b).position m := by
  obtain ⟨q, refers, shows⟩ := h
  show Shows b .model (b.follow 0) m
  rwa [refers.follow_eq]

/-- The content of a buffer is that of the logical model. -/
theorem content_eq : ModelContent.of (Table.root b) = m.model := by
  rw [shows_simulation.model_eq h.root, ModelContent.of_record]

/-- Each table that is reached in a buffer answers as one that is reached in the logical model. -/
theorem answers {t : TableType} {x : Table} (hr : Reaches .model (Table.root b) t x) :
    ∃ r, Reaches .model m t r ∧ Answers t x r := by
  obtain ⟨r, hr', hshows⟩ := shows_simulation.reaches h.root hr
  exact ⟨r, hr', hshows.answers⟩

/-- Each table that is reached in the logical model is reached in the buffer. -/
theorem answered {t : TableType} {r : Record} (hr : Reaches .model m t r) :
    ∃ x, Reaches .model (Table.root b) t x ∧ Answers t x r := by
  obtain ⟨x, hr', hshows⟩ := shows_simulation.symm.reaches h.root hr
  exact ⟨x, hr', hshows.answers⟩

end Represents

end NetPack.Schema
