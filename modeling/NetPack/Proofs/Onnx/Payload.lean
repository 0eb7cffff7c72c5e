import Mathlib.Data.List.Forall2
import NetPack.Onnx.Payload
import NetPack.Proofs.Onnx.Consistent
import NetPack.Proofs.Onnx.ConstantForm

/-!
# Payloads narrowed into one log

A payload may hold 64-bit integers that become elements of a constant or of a list, by a route of its own
(`Payload.Narrows`). They are moved to the nearest element one by one, and those that this changes are reported
(`Narrowed`), even if the payload fails afterwards. A list of payloads only ever adds to its log, each payload what it
adds to an empty one, and no payload sees what the others have added (`processAll_narrows`).
-/

namespace NetPack

/-! ## Elements nearest to integers -/

/-- The second list has the nearest element of each integer of the first one, and the integers that differ from it are
reported once each, in order, with both values. -/
structure Narrowed (name : String) (vs : List Int64) (cs : List Int32) (reports : List Diagnostic) : Prop where
  nearest : List.Forall₂ (fun v c => c.toInt = max (-0x7fffffff) (min 0x7fffffff v.toInt)) vs cs
  reports_eq : reports = ((vs.zip cs).filter fun p => p.2.toInt ≠ p.1.toInt).map fun p =>
    .valueClamped name p.1 p.2
  mono : ∀ p ∈ vs.zip cs, ∀ q ∈ vs.zip cs, p.1 ≤ q.1 → p.2 ≤ q.2
  odd : ∀ p ∈ vs.zip cs, ∀ q ∈ vs.zip cs, q.1.toInt = -p.1.toInt → q.2.toInt = -p.2.toInt
  ne_min : ∀ c ∈ cs, c.toInt ≠ -0x80000000

theorem saturate_le_saturate {v w : Int64} (h : v ≤ w) : saturate v ≤ saturate w := by
  rw [Int64.le_iff_toInt_le] at h
  rw [Int32.le_iff_toInt_le, toInt_saturate, toInt_saturate]
  omega

theorem toInt_saturate_of_neg {v w : Int64} (h : w.toInt = -v.toInt) :
    (saturate w).toInt = -(saturate v).toInt := by
  rw [toInt_saturate, toInt_saturate, h]
  unfold elementBound
  omega

theorem toInt_saturate_ne_min (v : Int64) : (saturate v).toInt ≠ -0x80000000 := by
  rw [toInt_saturate]
  unfold elementBound
  omega

theorem clampings_eq (name : String) (vs : List Int64) : clampings name vs
    = ((vs.zip (vs.map saturate)).filter fun p => p.2.toInt ≠ p.1.toInt).map fun p =>
      .valueClamped name p.1 p.2 := by
  have hlog : clampings name vs = vs.filterMap (clampReport? name) :=
    (congrArg Logged.log (narrow_eq name vs)).symm
  rw [hlog]
  clear hlog
  induction vs with
  | nil => rfl
  | cons v vs ih =>
    rw [List.map_cons, List.zip_cons_cons, List.filterMap_cons, List.filter_cons, ih, clampReport?]
    by_cases h : (saturate v).toInt = v.toInt
    · simp [h]
    · simp [h]

theorem eq_saturate_of_mem_zip {vs : List Int64} {p : Int64 × Int32} (h : p ∈ vs.zip (vs.map saturate)) :
    p.2 = saturate p.1 := by
  rw [← List.map_prod_left_eq_zip, List.mem_map] at h
  obtain ⟨v, -, rfl⟩ := h
  rfl

theorem narrowed_saturate (name : String) (vs : List Int64) :
    Narrowed name vs (vs.map saturate) (clampings name vs) where
  nearest := List.forall₂_map_right_iff.mpr (List.forall₂_same.mpr fun v _ => toInt_saturate v)
  reports_eq := clampings_eq name vs
  mono p hp q hq h := by
    rw [eq_saturate_of_mem_zip hp, eq_saturate_of_mem_zip hq]
    exact saturate_le_saturate h
  odd p hp q hq h := by
    rw [eq_saturate_of_mem_zip hp, eq_saturate_of_mem_zip hq]
    exact toInt_saturate_of_neg h
  ne_min c hc := by
    obtain ⟨v, -, rfl⟩ := List.mem_map.mp hc
    exact toInt_saturate_ne_min v

namespace Onnx

/-! ## Tensors -/

namespace Tensor

variable {t : Tensor}

/-- A tensor whose elements are 64-bit integers and can be read. -/
def HasIntegers (t : Tensor) : Prop :=
  t.Readable ∧ ElementType.ofNumber? t.elementType.toInt = some .int64

theorem scalars_of_int64 {l : RawLayout} (htype : ElementType.ofNumber? t.elementType.toInt = some .int64)
    (hl : ElementType.int64.layout? = some l) (hwhole : t.Whole l) :
    t.scalars l = (t.integers.map saturate).map .int := by
  have htyped := typed_of_int64 htype
  cases hl
  unfold scalars
  rw [integers_of_int64 htype]
  by_cases hempty : t.int64Data = []
  · have hnil : t.typed = [] := by rw [htyped, hempty]; rfl
    have hdvd : 8 ∣ t.rawData.length := hwhole.resolve_left fun hne => hne hnil
    rw [if_pos hnil, hempty, List.isEmpty_nil, if_pos rfl, rawScalars_eq (by decide) hdvd, List.map_map,
      List.map_map]
    rfl
  · have hne : t.typed ≠ [] := by simpa [htyped] using hempty
    rw [if_neg hne, if_neg (by simpa using hempty), htyped, List.map_map]
    rfl

theorem toConstant_of_hasIntegers (h : t.HasIntegers) : t.toConstant
    = ⟨clampings t.name t.integers, Constant.of? t.name t.words (.int (t.integers.map saturate))⟩ := by
  obtain ⟨⟨hshape, l, hlayout, hwhole⟩, htype⟩ := h
  obtain ⟨es, hestype, hscalars, hconstant⟩ := toConstant_of_readable hshape hlayout hwhole
  have hl : ElementType.int64.layout? = some l := by rwa [layout?, htype] at hlayout
  have hes : es = .int (t.integers.map saturate) := by
    refine Elements.eq_of_scalars ?_ (hscalars.trans (scalars_of_int64 htype hl hwhole))
    cases hl
    exact hestype
  rw [hconstant, hes]

/-- Nothing is found in any other tensor. -/
theorem log_of_not_hasIntegers (h : ¬t.HasIntegers) : t.toConstant.log = [] := by
  by_cases hreadable : t.Readable
  · have htype : ElementType.ofNumber? t.elementType.toInt ≠ some .int64 := fun htype => h ⟨hreadable, htype⟩
    obtain ⟨hshape, l, hlayout, hwhole⟩ := hreadable
    obtain ⟨es, -, -, hconstant⟩ := toConstant_of_readable hshape hlayout hwhole
    rw [hconstant, integers_of_ne htype]
    rfl
  · exact log_of_not_readable hreadable

end Tensor

/-! ## Operators -/

namespace Node

/-- An operator has one of the forms of a constant, or none of them. -/
theorem gives_or_none (n : Node) :
    (∃ f a, n.Gives f a) ∨ ∀ f ∈ ConstantForm.all, n.first? f.name = none := by
  cases hfind : ConstantForm.all.find? fun f => (n.first? f.name).isSome with
  | none =>
    right
    intro f hf
    simpa using List.find?_eq_none.mp hfind f hf
  | some f =>
    left
    obtain ⟨hsome, before, later, hall, hbefore⟩ := List.find?_eq_some_iff_append.mp hfind
    obtain ⟨a, ha⟩ := Option.isSome_iff_exists.mp hsome
    have hne : ∀ g ∈ before, decide (g ≠ f) = true := by
      rintro g hg
      refine decide_eq_true fun heq => ?_
      have hnone := hbefore g hg
      rw [heq, hsome] at hnone
      cases hnone
    have hearlier : f.earlier = before := by
      rw [ConstantForm.earlier, hall, List.takeWhile_append_of_pos hne,
        List.takeWhile_cons_of_neg (by simp), List.append_nil]
    refine ⟨f, a, ?_, ha⟩
    rw [hearlier]
    intro g hg
    simpa using hbefore g hg

variable {n : Node} {name : String}

theorem toConstant_of_head?_none (h : n.outputs.head? = none) : n.toConstant = .fail (.noOutputs n.name) := by
  unfold toConstant
  rw [h]
  rfl

theorem toConstant_of_none (hname : n.outputs.head? = some name)
    (h : ∀ f ∈ ConstantForm.all, n.first? f.name = none) :
    n.toConstant = .fail (.missingRequiredAttribute "value") := by
  rw [toConstant_eq_firstForm hname, ← List.append_nil ConstantForm.all, firstForm_append h]
  rfl

theorem log_of_not_fits {f : ConstantForm} {v : f.kind.Value} (h : ¬f.Fits v) : (f.make name v).log = [] := by
  cases f with
  | ints => exact congrArg Logged.log (if_neg h)
  | _ => exact absurd trivial h

end Node

/-! ## Payloads -/

/-- A payload has 64-bit integers that are narrowed under a name. Those of a tensor or an operator get a shape. An
operator of type `Constant` narrows those of the tensor that has its value in it. -/
inductive Payload.Narrows : Payload → String → List Int64 → Option (List UInt32) → Prop
  | tensor {t : Tensor} (h : t.HasIntegers) : Narrows (.tensor t) t.name t.integers (some t.words)
  | operator {n : Node} {name : String} {f : ConstantForm} {a : Attribute} {v : f.kind.Value}
      (hname : n.outputs.head? = some name) (hgives : n.Gives f a) (hvalue : a.value? = some ⟨f.kind, v⟩)
      (hfits : f.Fits v) (h : (f.toTensor name v).HasIntegers) :
      Narrows (.operator n) name (f.toTensor name v).integers (some (f.toTensor name v).words)
  | integers (name : String) (vs : List Int64) : Narrows (.integers name vs) name vs none

/-- What narrowed integers become: a constant if they have a shape, which they may not fit, and else a list. -/
def Product.ofNarrowed (name : String) (cs : List Int32) : Option (List UInt32) → Except Failure Product
  | some shape => (Constant.of? name shape (.int cs)).map .constant
  | none => .ok (.integers cs)

namespace Payload

theorem process_tensor (t : Tensor) :
    (tensor t).process = ⟨t.toConstant.log, t.toConstant.result.map .constant⟩ :=
  Logged.bind_pure_eq t.toConstant Product.constant

theorem process_operator (n : Node) :
    (operator n).process = ⟨n.toConstant.log, n.toConstant.result.map .constant⟩ :=
  Logged.bind_pure_eq n.toConstant Product.constant

theorem process_of_narrows {p : Payload} {name : String} {vs : List Int64} {shape? : Option (List UInt32)}
    (h : p.Narrows name vs shape?) :
    p.process = ⟨clampings name vs, Product.ofNarrowed name (vs.map saturate) shape?⟩ := by
  cases h with
  | tensor h => rw [process_tensor, Tensor.toConstant_of_hasIntegers h]; rfl
  | @operator n name f a v hname hgives hvalue hfits h =>
    have hnamed : (f.toTensor name v).name = name := by cases f <;> rfl
    have hconstant := Tensor.toConstant_of_hasIntegers h
    rw [hnamed] at hconstant
    rw [process_operator, hgives.toConstant_of_value hname hvalue, f.make_eq name v hfits, hconstant]
    rfl
  | integers name vs =>
    have hnarrow : (integers name vs).process = ⟨(narrow name vs).log, (narrow name vs).result.map .integers⟩ :=
      Logged.bind_pure_eq (narrow name vs) Product.integers
    rw [hnarrow, narrow_eq]
    rfl

/-- Without integers to narrow nothing is found. -/
theorem log_of_not_narrows {p : Payload} (h : ∀ name vs shape?, ¬p.Narrows name vs shape?) :
    p.process.log = [] := by
  cases p with
  | tensor t =>
    rw [process_tensor]
    exact Tensor.log_of_not_hasIntegers fun ht => h _ _ _ (.tensor ht)
  | integers name vs => exact absurd (.integers name vs) (h _ _ _)
  | operator n =>
    rw [process_operator]
    cases hname : n.outputs.head? with
    | none => rw [Node.toConstant_of_head?_none hname]; rfl
    | some name =>
      rcases n.gives_or_none with ⟨f, a, hgives⟩ | hnone
      · by_cases hvalue : ∃ v, a.value? = some ⟨f.kind, v⟩
        · obtain ⟨v, hv⟩ := hvalue
          rw [hgives.toConstant_of_value hname hv]
          by_cases hfits : f.Fits v
          · rw [f.make_eq name v hfits]
            exact Tensor.log_of_not_hasIntegers fun ht => h _ _ _ (.operator hname hgives hv hfits ht)
          · exact Node.log_of_not_fits hfits
        · rw [hgives.toConstant_of_ne hname fun v hv => hvalue ⟨v, hv⟩]
          rfl
      · rw [Node.toConstant_of_none hname hnone]
        rfl

end Payload

/-! ## Lists of payloads -/

theorem processAll_nil (log : List Diagnostic) : processAll log [] = (log, []) := rfl

theorem processAll_cons (log : List Diagnostic) (p : Payload) (ps : List Payload) :
    processAll log (p :: ps) = ((processAll (log ++ p.process.log) ps).1,
      (p.process.result, p.process.log) :: (processAll (log ++ p.process.log) ps).2) := rfl

theorem processAll_eq (log : List Diagnostic) (ps : List Payload) : processAll log ps
    = (log ++ ps.flatMap fun p => p.process.log, ps.map fun p => (p.process.result, p.process.log)) := by
  induction ps generalizing log with
  | nil => simp [processAll_nil]
  | cons p ps ih => rw [processAll_cons, ih, List.flatMap_cons, List.append_assoc, List.map_cons]

theorem processAll_singleton (p : Payload) :
    processAll [] [p] = (p.process.log, [(p.process.result, p.process.log)]) := rfl

/-- Payloads are processed as each of them is into an empty log: their outcomes are the same, and what they add to the
log is put behind what is there. What a payload adds are the reports of the integers that it narrows, whether or not it
fails afterwards. -/
theorem processAll_narrows (log : List Diagnostic) (ps : List Payload) :
    (processAll log ps).2 = (ps.flatMap fun p => (processAll [] [p]).2) ∧
    (∀ before p after, ps = before ++ p :: after →
      (processAll log (before ++ [p])).1 = (processAll log before).1 ++ (processAll [] [p]).1 ∧
      (processAll log (before ++ [p])).1 <+: (processAll log ps).1) ∧
    ∀ p, ∃ outcome reports, processAll [] [p] = (reports, [(outcome, reports)]) ∧
      (∀ name vs shape?, p.Narrows name vs shape? →
        ∃ cs, Narrowed name vs cs reports ∧ outcome = Product.ofNarrowed name cs shape?) ∧
      ((∀ name vs shape?, ¬p.Narrows name vs shape?) → reports = []) := by
  refine ⟨?_, ?_, ?_⟩
  · simp only [processAll_singleton, processAll_eq log]
    exact List.map_eq_flatMap
  · rintro before p after rfl
    simp only [processAll_eq log, processAll_singleton]
    constructor
    · simp
    · simp
  · intro p
    refine ⟨p.process.result, p.process.log, processAll_singleton p, ?_, Payload.log_of_not_narrows⟩
    intro name vs shape? h
    rw [Payload.process_of_narrows h]
    exact ⟨vs.map saturate, narrowed_saturate name vs, rfl⟩

/-- The first payload fails, but its report stays, and the second one is processed as if it came first. -/
example : processAll [] [.tensor { name := "t", dims := [2], elementType := 7, int64Data := [2147483648] },
      .integers "v" [-2147483648, 5]]
    = ([.valueClamped "t" 2147483648 2147483647, .valueClamped "v" (-2147483648) (-2147483647)],
      [(.error (.invalidTensorData "t" (.wrongCount [2] 2 1)), [.valueClamped "t" 2147483648 2147483647]),
        (.ok (.integers [-2147483647, 5]), [.valueClamped "v" (-2147483648) (-2147483647)])]) := by
  rfl

end Onnx

end NetPack
