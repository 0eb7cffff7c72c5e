import NetPack.Proofs.Buffer.ObjectWriter
import NetPack.Proofs.Schema.Access

/-!
# Logical tables that conform to the format

A table is in order (`InOrder`) if it holds nothing but the fields of its kind, each of its type and in a
slot of its own, if its texts are UTF-8, and if a union has a table exactly when its kind is told. It
conforms (`Conforms`) if so does every table that an accessor gives. Whatever a chain of accessors
reaches then conforms as well (`Conforms.reaches`), and the whole object can be written
(`Conforms.fits`).
-/

namespace NetPack.Schema

open Buffer (Entry Fields Object Objects TableLike lookup_eq_some_iff_mem mem_of_lookup)
open Buffer.Writer (slotLimit)

/-! ## Conformance -/

structure InOrder (t : TableType) (fs : Fields) : Prop where
  nodup : (fs.toList.map (·.1)).Nodup
  has : ∀ s e, fs.entry? s = some e → ∃ f, t.field? s = some f ∧ Has f e
  text : ∀ s bs, fs.entry? s = some (.child (.text bs)) → ∃ cs, bs = Text.utf8 cs
  member : ∀ s kind u, t.field? s = some (.member kind u) →
    (byteAt fs kind = 0 ∧ fs.entry? s = none) ∨
      ∃ t' fs', u.member? (byteAt fs kind) = some t' ∧ fs.entry? s = some (.child (.table fs'))

/-- The table and all tables that are reached from it are in order. -/
inductive Conforms : TableType → Fields → Prop
  | intro {t : TableType} {fs : Fields} (here : InOrder t fs)
      (access : ∀ t' fs', Access t fs t' fs' → Conforms t' fs') : Conforms t fs

theorem InOrder.typed {t : TableType} {fs : Fields} (h : InOrder t fs) : Typed t fs := by
  intro s f e hf he
  obtain ⟨f', hf', hh⟩ := h.has s e he
  cases hf.symm.trans hf'
  exact hh

theorem Conforms.inOrder {t : TableType} {fs : Fields} (h : Conforms t fs) : InOrder t fs := by
  cases h with
  | intro here access => exact here

theorem Conforms.access {t t' : TableType} {fs fs' : Fields} (h : Conforms t fs)
    (ha : Access t fs t' fs') : Conforms t' fs' := by
  cases h with
  | intro here access => exact access t' fs' ha

theorem Conforms.reaches {t t' : TableType} {fs fs' : Fields} (h : Conforms t fs)
    (hr : Reaches t fs t' fs') : Conforms t' fs' := by
  induction hr with
  | refl => exact h
  | tail _ last ih => exact ih.access last

theorem Conforms.wellTyped {t : TableType} {fs : Fields} (h : Conforms t fs) : WellTyped t fs :=
  fun _ _ hr => (h.reaches hr).inOrder.typed

/-! ## Conforming tables can be written -/

/-- The slots of the format are few. -/
theorem TableType.lt_of_field? {t : TableType} {s : Nat} {f : FieldType} (h : t.field? s = some f) :
    s < slotLimit := by
  have hall : ∀ p ∈ t.fields, p.1 < slotLimit := by
    cases t with
    | attrs a => cases a <;> decide
    | elements d => cases d <;> decide
    | scalar c => cases c <;> decide
    | _ => decide
  exact hall _ (mem_of_lookup h)

theorem TableType.nodup_slots (t : TableType) : (t.fields.map (·.1)).Nodup := by
  cases t with
  | attrs a => cases a <;> decide
  | elements d => cases d <;> decide
  | scalar c => cases c <;> decide
  | _ => decide

theorem fit_fields_iff : ∀ fs : Fields, fs.Fit ↔ ∀ s o, (s, Entry.child o) ∈ fs.toList → o.Fits
  | .nil => by simp [Fields.Fit, Fields.toList]
  | .byte s v r => by simp [Fields.Fit, Fields.toList, fit_fields_iff r]
  | .word s v r => by simp [Fields.Fit, Fields.toList, fit_fields_iff r]
  | .child s o r => by
    simp only [Fields.Fit, Fields.toList, fit_fields_iff r, List.mem_cons, Prod.mk.injEq,
      Entry.child.injEq]
    constructor
    · rintro ⟨ho, hr⟩ s' o' (⟨-, rfl⟩ | hm)
      · exact ho
      · exact hr s' o' hm
    · intro h
      exact ⟨h s o (.inl ⟨rfl, rfl⟩), fun s' o' hm => h s' o' (.inr hm)⟩

theorem fit_objects_iff : ∀ os : Objects, os.Fit ↔ ∀ o ∈ os.toList, o.Fits
  | .nil => by simp [Objects.Fit, Objects.toList]
  | .cons o r => by simp [Objects.Fit, Objects.toList, fit_objects_iff r]

/-- The induction is over the accessors: each child of a table is met by one of them. -/
theorem Conforms.fits {t : TableType} {fs : Fields} (h : Conforms t fs) : (Object.table fs).Fits := by
  induction h with
  | @intro t fs here access ih =>
    have hentry : ∀ s e, (s, e) ∈ fs.toList → fs.entry? s = some e := by
      intro s e hm
      rw [Fields.entry?_eq_lookup]
      exact (lookup_eq_some_iff_mem here.nodup).mpr hm
    refine ⟨here.nodup, ?_, (fit_fields_iff fs).mpr ?_⟩
    · intro s hs
      obtain ⟨⟨_, e⟩, hm, rfl⟩ := List.mem_map.mp hs
      obtain ⟨f, hf, -⟩ := here.has _ e (hentry _ e hm)
      exact TableType.lt_of_field? hf
    · intro s o hm
      have he := hentry s _ hm
      obtain ⟨f, hf, hh⟩ := here.has s _ he
      cases hh with
      | text bs => trivial
      | words ws => trivial
      | table t' fs' => exact ih t' fs' (.table hf (by simp [TableLike.table?, he]))
      | @tables t' os all =>
        refine (fit_objects_iff os).mpr fun o ho => ?_
        rw [all] at ho
        obtain ⟨fs', hmem, rfl⟩ := List.mem_map.mp ho
        exact ih t' fs' (.element hf (by simp [TableLike.tables?, he]) hmem)
      | member kind u fs' =>
        rcases here.member s kind u hf with ⟨-, hnone⟩ | ⟨t', fs'', hu, -⟩
        · cases hnone.symm.trans he
        · exact ih t' fs' (.member hf hu (by simp [TableLike.table?, he]))

end NetPack.Schema
