import Mathlib.Logic.Relation
import NetPack.Proofs.Schema.Represents

/-!
# The logical model of a buffer

A buffer can be read (`Readable`) if every table that its references lead to has its fields in their places.
Like what it means to lay out a model, this is said of the bytes and not of a reader. The buffers that can be
read are those that lay out a logical model (`readable_iff_exists_represents`). References lead forward, so the
tables behind a table stand between it and the end of the buffer, and the logical tables are made from the last
one to the first. A table that is shared by others is made for each of them.
-/

namespace NetPack.Schema

open Buffer (Image Table TableLike Vtable mem_of_lookup)

/-! ## Buffers that can be read -/

/-- A field at a position refers to something that stands as its type asks for. -/
def Refers (b : Image) (i : Nat) : FieldType → Prop
  | .byte | .word => True
  | .text => ∃ q s, b.Refers i q ∧ b.TextAt q s
  | .words => ∃ q ws, b.Refers i q ∧ b.WordsAt q ws
  | .table _ | .member _ _ => ∃ q, b.Refers i q
  | .tables _ => ∃ q targets, b.Refers i q ∧ b.ReferencesAt q targets

/-- The fields of a table of a kind lie in it and refer to something that stands as their types ask for.
Nothing is said of slots that the kind does not have, and a union may have a value whose kind is not told. -/
structure ReadableTable (b : Image) (t : TableType) (p : Nat) (v : Vtable) : Prop where
  stands : b.TableAt p v
  field : ∀ s f n, t.field? s = some f → v.place? s = some n → v.Covers p n f.width ∧ Refers b (p + n) f

/-- A table of a kind at a position has a reference to another one: in a field, in a vector, or as the table of
a union whose byte stands for its kind. -/
inductive Onward (b : Image) : TableType × Nat → TableType × Nat → Prop
  | table {t t' : TableType} {p q s n : Nat} {v : Vtable} (stands : b.TableAt p v)
      (field : t.field? s = some (.table t')) (place : v.place? s = some n) (refers : b.Refers (p + n) q) :
      Onward b (t, p) (t', q)
  | element {t t' : TableType} {p q q' s n : Nat} {v : Vtable} {targets : List Nat} (stands : b.TableAt p v)
      (field : t.field? s = some (.tables t')) (place : v.place? s = some n) (refers : b.Refers (p + n) q)
      (vector : b.ReferencesAt q targets) (mem : q' ∈ targets) : Onward b (t, p) (t', q')
  | member {t t' : TableType} {p q s n kind k : Nat} {u : UnionType} {c : UInt8} {v : Vtable}
      (stands : b.TableAt p v) (field : t.field? s = some (.member kind u)) (place : v.place? s = some n)
      (refers : b.Refers (p + n) q) (kindPlace : v.place? kind = some k) (told : b.HoldsAt (p + k) [c])
      (known : u.kinds.lookup c = some t') : Onward b (t, p) (t', q)

/-- A buffer can be read wherever its references lead. -/
def Readable (b : Image) : Prop :=
  ∃ root, b.Refers 0 root ∧
    ∀ t p, Relation.ReflTransGen (Onward b) (.model, root) (t, p) → ∃ v, ReadableTable b t p v

theorem Keeps.refers {b : Image} {p n : Nat} {v : Vtable} {r : Record} {f : FieldType} {o? : Option Value}
    (h : Keeps b p v r f (some n) o?) : v.Covers p n f.width ∧ Refers b (p + n) f := by
  cases h with
  | byte covers holds => exact ⟨covers, trivial⟩
  | word covers holds => exact ⟨covers, trivial⟩
  | text covers refers stands => exact ⟨covers, _, _, refers, stands⟩
  | words covers refers stands => exact ⟨covers, _, _, refers, stands⟩
  | table covers refers shows => exact ⟨covers, _, refers⟩
  | tables covers refers stands length shows => exact ⟨covers, _, _, refers, stands⟩
  | member covers refers known shows => exact ⟨covers, _, refers⟩
  | unknown covers refers unknown => exact ⟨covers, _, refers⟩

/-- A table that is laid out can be read. -/
theorem Shows.readable {b : Image} {t : TableType} {p : Nat} {r : Record} (h : Shows b t p r) :
    ∃ v, ReadableTable b t p v := by
  cases h with
  | intro v stands field =>
    refine ⟨v, stands, fun s f n hf hn => ?_⟩
    have hk := field s f hf
    rw [hn] at hk
    exact hk.refers

/-- A byte is read at its place, and is zero without one. -/
theorem byteAt_table {b : Image} {p : Nat} {v : Vtable} (h : b.TableAt p v) (s : Nat) :
    byteAt (⟨b, p⟩ : Table) s = ((v.place? s).map fun n => b.byteAt (p + n)).getD 0 := by
  simp only [byteAt, TableLike.byte?, h.slot?_eq, Option.map_map]
  rfl

/-- A reference to a table is one that an accessor follows. -/
theorem Onward.access {b : Image} {t t' : TableType} {p q : Nat} (h : Onward b (t, p) (t', q)) :
    Access t (⟨b, p⟩ : Table) t' (⟨b, q⟩ : Table) := by
  cases h with
  | @table _ _ _ _ s n v stands field place refers =>
    refine .table field ?_
    rw [table?_table, stands.slot?_eq, place]
    exact congrArg (fun q => some (Table.mk b q)) refers.follow_eq
  | @element _ _ _ q₀ _ s n v targets stands field place refers vector mem =>
    refine .element field ?_ (List.mem_map_of_mem mem)
    rw [tables?_table, stands.slot?_eq, place, ← vector.tables_eq, ← refers.follow_eq]
    rfl
  | @member _ _ _ _ s n kind k u c v stands field place refers kindPlace told known =>
    refine .member field ?_ ?_
    · rw [byteAt_table stands, kindPlace, Option.map_some, told.byteAt, UnionType.member?_eq_lookup]
      exact known
    · rw [table?_table, stands.slot?_eq, place]
      exact congrArg (fun q => some (Table.mk b q)) refers.follow_eq

/-- What a table that is laid out has a reference to is laid out as well. -/
theorem Shows.onward {b : Image} {t t' : TableType} {p q : Nat} {r : Record} (h : Shows b t p r)
    (ho : Onward b (t, p) (t', q)) : ∃ r', Shows b t' q r' := by
  have hshows : Shows (⟨b, p⟩ : Table).image t (⟨b, p⟩ : Table).position r := h
  obtain ⟨r', -, h'⟩ := shows_simulation.access hshows ho.access
  exact ⟨r', h'⟩

/-! ## Logical tables -/

/-- A reference to a table leads forward. -/
theorem Onward.lt {b : Image} {t t' : TableType} {p q : Nat} (h : Onward b (t, p) (t', q)) : p < q := by
  cases h with
  | table stands field place refers | member stands field place refers kindPlace told known =>
    have hforward := refers.forward
    omega
  | element stands field place refers vector mem =>
    obtain ⟨k, hk, rfl⟩ := List.getElem_of_mem mem
    have hforward := refers.forward
    have hforward' := (vector.refers k hk).forward
    omega

/-- Logical tables for the targets of a vector make up a vector of logical tables. -/
theorem exists_records {b : Image} {t : TableType} {targets : List Nat}
    (h : ∀ q ∈ targets, ∃ r, Shows b t q r) : ∃ rs : List Record, targets.length = rs.length ∧
      ∀ k (h : k < targets.length) (h' : k < rs.length), Shows b t targets[k] rs[k] := by
  have hall : ∀ k : Fin targets.length, ∃ r, Shows b t targets[k] r := fun k => h _ (List.getElem_mem k.2)
  choose made hmade using hall
  refine ⟨List.ofFn made, List.length_ofFn.symm, fun k hk hk' => ?_⟩
  rw [List.getElem_ofFn]
  exact hmade ⟨k, hk⟩

/-- What stands in a field is kept by a value, in any logical table that tells the same kinds of unions, if the
tables behind it are laid out. -/
theorem ReadableTable.exists_keeps {b : Image} {t : TableType} {p : Nat} {v : Vtable}
    (h : ReadableTable b t p v) (hshows : ∀ t' q, Onward b (t, p) (t', q) → ∃ r, Shows b t' q r) {s n : Nat}
    {f : FieldType} (hn : v.place? s = some n) (hf : t.field? s = some f) :
    ∃ o, ∀ r : Record, (∀ kind u, f = .member kind u → r.byte kind = byteAt (⟨b, p⟩ : Table) kind) →
      Keeps b p v r f (some n) (some o) := by
  obtain ⟨covers, refers⟩ := h.field s f n hf hn
  have hinside := h.stands.inside
  have hend := covers.inside
  cases f with
  | byte =>
    simp only [FieldType.width] at hend
    exact ⟨.byte (b.byteAt (p + n)), fun r _ => .byte covers (Image.holdsAt_byteAt (by omega))⟩
  | word =>
    simp only [FieldType.width] at hend
    refine ⟨.word (UInt32.ofNat (b.numberAt 4 (p + n))), fun r _ => .word covers ?_⟩
    rw [UInt32.toNat_ofNat_of_lt' (Image.numberAt_lt b 4 (p + n))]
    exact Image.holdsAt_numberAt (by omega)
  | text =>
    obtain ⟨q, str, refers, stands⟩ := refers
    exact ⟨_, fun r _ => .text covers refers stands⟩
  | words =>
    obtain ⟨q, ws, refers, stands⟩ := refers
    exact ⟨_, fun r _ => .words covers refers stands⟩
  | table t' =>
    obtain ⟨q, refers⟩ := refers
    obtain ⟨r', hr'⟩ := hshows t' q (.table h.stands hf hn refers)
    exact ⟨_, fun r _ => .table covers refers hr'⟩
  | tables t' =>
    obtain ⟨q, targets, refers, stands⟩ := refers
    obtain ⟨rs, hlength, hrs⟩ := exists_records fun q' hq' =>
      hshows t' q' (.element h.stands hf hn refers stands hq')
    exact ⟨_, fun r _ => .tables covers refers stands hlength hrs⟩
  | member kind u =>
    obtain ⟨q, refers⟩ := refers
    cases hu : u.kinds.lookup (byteAt (⟨b, p⟩ : Table) kind) with
    | none =>
      refine ⟨.byte 0, fun r hkind => .unknown covers refers ?_⟩
      rw [hkind kind u rfl, hu]
    | some t' =>
      rw [byteAt_table h.stands] at hu
      cases hk : v.place? kind with
      | none =>
        rw [hk] at hu
        cases u <;> cases hu
      | some k =>
        rw [hk] at hu
        have hkind := (h.field kind .byte k (field?_kind hf) hk).1.inside
        have told : b.HoldsAt (p + k) [b.byteAt (p + k)] :=
          Image.holdsAt_byteAt (by simp only [FieldType.width] at hkind; omega)
        obtain ⟨r', hr'⟩ := hshows t' q (.member h.stands hf hn refers hk told hu)
        refine ⟨_, fun r hkind => .member covers refers ?_ hr'⟩
        rw [hkind kind u rfl, byteAt_table h.stands, hk]
        exact hu

/-- A table that can be read is laid out from a logical table if the tables behind it are. The bytes that tell
the kinds of unions are kept like any other, so the logical table tells the same kinds. -/
theorem ReadableTable.exists_shows {b : Image} {t : TableType} {p : Nat} {v : Vtable}
    (h : ReadableTable b t p v) (hshows : ∀ t' q, Onward b (t, p) (t', q) → ∃ r, Shows b t' q r) :
    ∃ r, Shows b t p r := by
  have hkeeps : ∀ s, ∃ o?, ∀ f, t.field? s = some f → ∀ r : Record,
      (∀ kind u, f = .member kind u → r.byte kind = byteAt (⟨b, p⟩ : Table) kind) →
      Keeps b p v r f (v.place? s) o? := by
    intro s
    cases hf : t.field? s with
    | none => exact ⟨none, fun f hf' => by cases hf'⟩
    | some f =>
      cases hn : v.place? s with
      | none => exact ⟨none, fun f _ r _ => .absent⟩
      | some n =>
        obtain ⟨o, ho⟩ := h.exists_keeps hshows hn hf
        refine ⟨some o, fun f' hf' => ?_⟩
        cases hf'
        exact ho
  choose o? ho using hkeeps
  obtain ⟨r, hr⟩ : ∃ r : Record, ∀ s, r s = o? s := ⟨o?, fun _ => rfl⟩
  have hbyte : ∀ kind, t.field? kind = some .byte → r.byte kind = byteAt (⟨b, p⟩ : Table) kind := by
    intro kind hf
    have hk := ho kind .byte hf r fun _ _ h => by cases h
    rw [byteAt_table h.stands, Record.byte, Record.byte?, hr]
    generalize o? kind = o at hk ⊢
    generalize v.place? kind = n? at hk ⊢
    cases hk with
    | absent => rfl
    | byte covers holds => rw [Option.map_some, holds.byteAt]
  refine ⟨r, .intro v h.stands fun s f hf => ?_⟩
  rw [hr]
  refine ho s f hf r fun kind u hu => ?_
  subst hu
  exact hbyte kind (field?_kind hf)

/-- A table is laid out from a logical table if all that its references lead to can be read. The induction is on
the bytes behind the table. -/
theorem exists_shows_of_readable {b : Image} {t : TableType} {p : Nat}
    (h : ∀ t' q, Relation.ReflTransGen (Onward b) (t, p) (t', q) → ∃ v, ReadableTable b t' q v) :
    ∃ r, Shows b t p r := by
  generalize hn : b.size - p = n
  induction n using Nat.strongRecOn generalizing t p with
  | ind n ih =>
    obtain ⟨v, hreadable⟩ := h t p .refl
    refine hreadable.exists_shows fun t' q ho => ?_
    have hlt := ho.lt
    have hlength := hreadable.stands.le_length
    have hinside := hreadable.stands.inside
    exact ih (b.size - q) (by omega) (fun t'' q' hq => h t'' q' (.head ho hq)) rfl

/-- The buffers that can be read are those that lay out a logical model. -/
theorem readable_iff_exists_represents {b : Image} : Readable b ↔ ∃ m, Represents b m := by
  constructor
  · rintro ⟨root, refers, h⟩
    obtain ⟨m, hm⟩ := exists_shows_of_readable h
    exact ⟨m, root, refers, hm⟩
  · rintro ⟨m, root, refers, hm⟩
    refine ⟨root, refers, fun t p hp => ?_⟩
    have hshown : ∀ y, Relation.ReflTransGen (Onward b) (.model, root) y → ∃ r, Shows b y.1 y.2 r := by
      intro y hy
      induction hy with
      | refl => exact ⟨m, hm⟩
      | tail _ last ih =>
        obtain ⟨r, hr⟩ := ih
        exact hr.onward last
    obtain ⟨r, hr⟩ := hshown (t, p) hp
    exact hr.readable

end NetPack.Schema
