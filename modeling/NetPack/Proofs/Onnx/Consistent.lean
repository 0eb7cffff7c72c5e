import NetPack.Proofs.Narrow
import NetPack.Proofs.Onnx.Elements

/-!
# Consistent tensors

A tensor is consistent if its dimensions are in range, constants are made of its element type, its raw data fill
whole elements, and it has as many elements as its shape asks for. `Tensor.Fault` says which failure belongs to
the first of these that does not hold. A constant is made of exactly the consistent tensors, and it is what the
tensor says; the others fail with their fault (`Tensor.toConstant_outcome`).
-/

namespace NetPack

/-! ## Counts -/

section Count

variable {name : String} {shape : List UInt32} {es : Elements}

theorem Constant.of?_of_tooMany (h : elementCount? shape = none) :
    of? name shape es = .error (.invalidTensorData name (.tooManyElements shape)) := by
  unfold of?
  split
  · rfl
  · rename_i heq
    rw [h] at heq
    cases heq

theorem Constant.of?_of_ne {n : Nat} (h : elementCount? shape = some n) (hne : n ≠ es.length) :
    of? name shape es = .error (.invalidTensorData name (.wrongCount shape n es.length)) := by
  unfold of?
  split
  · rename_i heq
    rw [h] at heq
    cases heq
  · rename_i n' heq
    rw [h] at heq
    cases heq
    exact dif_neg hne

theorem Constant.of?_of_eq (h : elementCount? shape = some es.length) :
    of? name shape es = .ok ⟨name, shape, es, h⟩ := by
  unfold of?
  split
  · rename_i heq
    rw [h] at heq
    cases heq
  · rename_i n' heq
    rw [h] at heq
    cases heq
    exact dif_pos rfl

end Count

namespace Onnx.Tensor

/-! ## Dimensions -/

/-- All dimensions are in range. -/
def HasShape (t : Tensor) : Prop :=
  ∀ d ∈ t.dims, FitsUnsigned d

/-- The shape of a tensor whose dimensions are in range. -/
def words (t : Tensor) : List UInt32 :=
  t.dims.map unsignedOf

theorem shape_of_hasShape {t : Tensor} (h : t.HasShape) (name : String) : t.shape name = .ok t.words := by
  unfold HasShape at h
  unfold shape words
  generalize t.dims = ds at h ⊢
  induction ds with
  | nil => rfl
  | cons d ds ih =>
    rw [List.mapM_cons, unsigned?_of_fits (h d List.mem_cons_self),
      ih fun d' hd' => h d' (List.mem_cons_of_mem _ hd')]
    rfl

/-- The first dimension out of range is the one that is refused. -/
theorem shape_of_bad_dimension {t : Tensor} {before after : List Int64} {d : Int64}
    (hdims : t.dims = before ++ d :: after) (hbefore : ∀ d' ∈ before, FitsUnsigned d')
    (hd : ¬FitsUnsigned d) (name : String) :
    t.shape name = .error (.invalidTensorData name (.dimension d)) := by
  unfold shape
  rw [hdims]
  clear hdims
  induction before with
  | nil =>
    rw [List.nil_append, List.mapM_cons, unsigned?_of_not_fits hd]
    rfl
  | cons d' ds ih =>
    rw [List.cons_append, List.mapM_cons, unsigned?_of_fits (hbefore d' List.mem_cons_self),
      ih fun d'' hd'' => hbefore d'' (List.mem_cons_of_mem _ hd'')]
    rfl

theorem exists_bad_dimension {ds : List Int64} (h : ¬∀ d ∈ ds, FitsUnsigned d) :
    ∃ before d after, ds = before ++ d :: after ∧ (∀ d' ∈ before, FitsUnsigned d') ∧ ¬FitsUnsigned d := by
  induction ds with
  | nil => exact absurd (fun d hd => nomatch hd) h
  | cons d ds ih =>
    by_cases hd : FitsUnsigned d
    · have hrest : ¬∀ d ∈ ds, FitsUnsigned d := fun hall =>
        h fun d' hd' => (List.mem_cons.mp hd').elim (fun heq => heq ▸ hd) (hall d')
      obtain ⟨before, d', after, rfl, hbefore, hd'⟩ := ih hrest
      refine ⟨d :: before, d', after, rfl, fun d'' hd'' => ?_, hd'⟩
      rcases List.mem_cons.mp hd'' with rfl | hmem
      · exact hd
      · exact hbefore d'' hmem
    · exact ⟨[], d, ds, rfl, fun d' hd' => (nomatch hd'), hd⟩

/-! ## What tensors make -/

/-- A tensor that says which constant it is. -/
structure Consistent (t : Tensor) : Prop where
  shape : t.HasShape
  elements : ∃ l, t.layout? = some l ∧ t.Whole l ∧ elementCount? t.words = some (t.scalars l).length

/-- A constant is the one that a tensor says: the name, the dimensions in order and the elements in order. -/
structure Makes (t : Tensor) (c : Constant) : Prop where
  name : c.name = t.name
  shape : c.shape.map (fun d => (d.toNat : Int)) = t.dims.map Int64.toInt
  elements : ∃ l, t.layout? = some l ∧ c.elements.type = l.type ∧ c.elements.scalars = t.scalars l

/-- The failure of a tensor that is not consistent is that of the first check that it does not pass. -/
inductive Fault (t : Tensor) : Failure → Prop
  | dimension {before after : List Int64} {d : Int64} (hdims : t.dims = before ++ d :: after)
      (hbefore : ∀ d' ∈ before, FitsUnsigned d') (hd : ¬FitsUnsigned d) :
      Fault t (.invalidTensorData t.name (.dimension d))
  | elementType (hshape : t.HasShape) (hlayout : t.layout? = none) :
      Fault t (.unsupportedElementType t.name t.elementType)
  | rawData {l : RawLayout} (hshape : t.HasShape) (hlayout : t.layout? = some l) (hragged : ¬t.Whole l) :
      Fault t (.invalidTensorData t.name (.raggedRawData t.rawData.length l.width))
  | tooMany {l : RawLayout} (hshape : t.HasShape) (hlayout : t.layout? = some l) (hwhole : t.Whole l)
      (hcount : elementCount? t.words = none) :
      Fault t (.invalidTensorData t.name (.tooManyElements t.words))
  | count {l : RawLayout} {n : Nat} (hshape : t.HasShape) (hlayout : t.layout? = some l)
      (hwhole : t.Whole l) (hcount : elementCount? t.words = some n) (hne : n ≠ (t.scalars l).length) :
      Fault t (.invalidTensorData t.name (.wrongCount t.words n (t.scalars l).length))

/-- The dimensions and the raw data are in order, whatever the number of elements. -/
def Readable (t : Tensor) : Prop :=
  t.HasShape ∧ ∃ l, t.layout? = some l ∧ t.Whole l

theorem consistent_or_fault (t : Tensor) : t.Consistent ∨ ∃ e, t.Fault e := by
  by_cases hshape : t.HasShape
  · cases hlayout : t.layout? with
    | none => exact .inr ⟨_, .elementType hshape hlayout⟩
    | some l =>
      by_cases hwhole : t.Whole l
      · cases hcount : elementCount? t.words with
        | none => exact .inr ⟨_, .tooMany hshape hlayout hwhole hcount⟩
        | some n =>
          by_cases hn : n = (t.scalars l).length
          · exact .inl ⟨hshape, l, hlayout, hwhole, hn ▸ hcount⟩
          · exact .inr ⟨_, .count hshape hlayout hwhole hcount hn⟩
      · exact .inr ⟨_, .rawData hshape hlayout hwhole⟩
  · obtain ⟨before, d, after, hdims, hbefore, hd⟩ := exists_bad_dimension hshape
    exact .inr ⟨_, .dimension hdims hbefore hd⟩

/-! ## The outcome -/

section Outcome

variable {t : Tensor} {l : RawLayout}

/-- A tensor that can be read makes a constant if the elements fit the shape, and what is found are its 64-bit
integers that have to be moved, in either case. -/
theorem toConstant_of_readable (hshape : t.HasShape) (hlayout : t.layout? = some l) (hwhole : t.Whole l) :
    ∃ es, es.type = l.type ∧ es.scalars = t.scalars l ∧
      t.toConstant = ⟨clampings t.name t.integers, Constant.of? t.name t.words es⟩ := by
  obtain ⟨es, helements, htype, hscalars⟩ := elements_of_whole t.name hlayout hwhole
  refine ⟨es, htype, hscalars, ?_⟩
  have hpure : (.ofExcept (.ok t.words) : Reported (List UInt32)) = pure t.words := rfl
  rw [toConstant, toConstantNamed, shape_of_hasShape hshape, hpure, pure_bind, helements,
    Logged.bind_of_ok _ rfl]
  exact congrArg (Logged.mk · _) (List.append_nil _)

theorem makes_of_consistent (h : t.Consistent) : ∃ c, t.toConstant.result = .ok c ∧ t.Makes c := by
  obtain ⟨hshape, l, hlayout, hwhole, hcount⟩ := h
  obtain ⟨es, htype, hscalars, hconstant⟩ := toConstant_of_readable hshape hlayout hwhole
  rw [← hscalars, Elements.length_scalars] at hcount
  refine ⟨⟨t.name, t.words, es, hcount⟩, ?_, rfl, ?_, l, hlayout, htype, hscalars⟩
  · rw [hconstant]
    exact Constant.of?_of_eq hcount
  · exact List.map_map.trans (List.map_congr_left fun d hd => toNat_unsignedOf (hshape d hd))

theorem toConstant_of_fault {e : Failure} (h : t.Fault e) : t.toConstant.result = .error e := by
  cases h with
  | dimension hdims hbefore hd =>
    rw [toConstant, toConstantNamed, shape_of_bad_dimension hdims hbefore hd]
    rfl
  | elementType hshape hlayout =>
    rw [toConstant, toConstantNamed, shape_of_hasShape hshape, elements_of_unsupported t.name hlayout]
    rfl
  | rawData hshape hlayout hragged =>
    rw [toConstant, toConstantNamed, shape_of_hasShape hshape, elements_of_ragged t.name hlayout hragged]
    rfl
  | tooMany hshape hlayout hwhole hcount =>
    obtain ⟨es, -, -, hconstant⟩ := toConstant_of_readable hshape hlayout hwhole
    rw [hconstant]
    exact Constant.of?_of_tooMany hcount
  | count hshape hlayout hwhole hcount hne =>
    obtain ⟨es, -, hscalars, hconstant⟩ := toConstant_of_readable hshape hlayout hwhole
    rw [← hscalars, Elements.length_scalars] at hne
    rw [← hscalars, Elements.length_scalars, hconstant]
    exact Constant.of?_of_ne hcount hne

theorem makes_of_toConstant {c : Constant} (h : t.toConstant.result = .ok c) : t.Consistent ∧ t.Makes c := by
  rcases t.consistent_or_fault with hconsistent | ⟨e, he⟩
  · obtain ⟨c', hc', hmakes⟩ := makes_of_consistent hconsistent
    cases h.symm.trans hc'
    exact ⟨hconsistent, hmakes⟩
  · cases h.symm.trans (toConstant_of_fault he)

/-- Nothing is found in a tensor that cannot be read. -/
theorem log_of_not_readable (h : ¬t.Readable) : t.toConstant.log = [] := by
  by_cases hshape : t.HasShape
  · rw [toConstant, toConstantNamed, shape_of_hasShape hshape]
    cases hlayout : t.layout? with
    | none =>
      rw [elements_of_unsupported t.name hlayout]
      rfl
    | some l =>
      have hragged : ¬t.Whole l := fun hwhole => h ⟨hshape, l, hlayout, hwhole⟩
      rw [elements_of_ragged t.name hlayout hragged]
      rfl
  · obtain ⟨before, d, after, hdims, hbefore, hd⟩ := exists_bad_dimension hshape
    rw [toConstant, toConstantNamed, shape_of_bad_dimension hdims hbefore hd]
    rfl

/-- A tensor has one fault at most, and it is the one that is reported. -/
theorem toConstant_eq_error_iff {e : Failure} : t.toConstant.result = .error e ↔ t.Fault e := by
  constructor
  · intro he
    rcases t.consistent_or_fault with hconsistent | ⟨e', he'⟩
    · obtain ⟨c, hc, -⟩ := makes_of_consistent hconsistent
      cases hc.symm.trans he
    · cases he.symm.trans (toConstant_of_fault he')
      exact he'
  · exact toConstant_of_fault

end Outcome

/-- A tensor makes a constant exactly if it is consistent, and the constant is the one that it says; otherwise
it fails with its fault. What is found follows what was found before: the 64-bit integers that have to be moved
if the tensor can be read, and nothing otherwise. -/
theorem toConstant_outcome (t : Tensor) (prior : List Diagnostic) :
    let outcome : Reported Constant := .tellAll prior >>= fun _ => t.toConstant
    ((∃ c, outcome.result = .ok c) ↔ t.Consistent) ∧
    (∀ c, outcome.result = .ok c → t.Makes c) ∧
    (∀ e, outcome.result = .error e ↔ t.Fault e) ∧
    (t.Readable → outcome.log = prior ++ clampings t.name t.integers) ∧
    (¬t.Readable → outcome.log = prior) := by
  intro outcome
  have houtcome : outcome = ⟨prior ++ t.toConstant.log, t.toConstant.result⟩ := Logged.bind_of_ok _ rfl
  rw [houtcome]
  refine ⟨⟨?_, ?_⟩, ?_, ?_, ?_, ?_⟩
  · rintro ⟨c, hc⟩
    exact (makes_of_toConstant hc).1
  · intro h
    obtain ⟨c, hc, -⟩ := makes_of_consistent h
    exact ⟨c, hc⟩
  · intro c hc
    exact (makes_of_toConstant hc).2
  · intro e
    exact toConstant_eq_error_iff
  · rintro ⟨hshape, l, hlayout, hwhole⟩
    obtain ⟨es, -, -, hconstant⟩ := toConstant_of_readable hshape hlayout hwhole
    rw [hconstant]
  · intro h
    rw [log_of_not_readable h, List.append_nil]

/-- What is found stays although the number of elements is wrong. -/
example : toConstant { name := "t", dims := [2], elementType := 7, int64Data := [2147483648] }
    = ⟨[.valueClamped "t" 2147483648 2147483647], .error (.invalidTensorData "t" (.wrongCount [2] 2 1))⟩ := by
  rfl

end Onnx.Tensor

end NetPack
