import NetPack.Proofs.Rename.Basic
import NetPack.Rule.Operators

/-!
# Rules under other names

A rule reads the attributes of an operator, which have no names of tensors in them except those of the
tensors themselves, and the constants that the inputs name. So if the constants are those of before under the
new names, each rule does what it did (`OpType.renames_rule`).
-/

namespace NetPack

/-! ## Failures without names -/

/-- A failure, if there is one, mentions no tensor and no operator. -/
def Nameless {α : Type} (r : Except Failure α) : Prop :=
  ∀ f, r = renameResult f id r

section Nameless

variable {α β : Type}

theorem nameless_ok (a : α) : Nameless (.ok a) :=
  fun _ => rfl

theorem Nameless.bind {r : Except Failure α} {g : α → Except Failure β} (hr : Nameless r)
    (hg : ∀ a, Nameless (g a)) : Nameless (r >>= g) := by
  intro f
  calc r >>= g = renameResult f id r >>= g := congrArg (· >>= g) (hr f)
    _ = renameResult f id (r >>= g) := renameResult_bind fun a => hg a f

theorem nameless_mapM {g : α → Except Failure β} (hg : ∀ a, Nameless (g a)) (l : List α) :
    Nameless (l.mapM g) :=
  fun f => renameResult_mapM (fun a => hg a f) l

namespace Rule

variable (name : String)

theorem nameless_unsigned (v : Int64) : Nameless (unsigned name v) := by
  intro f
  unfold unsigned
  cases unsigned? v with
  | none => rfl
  | some n => rfl

theorem nameless_signed (v : Int64) : Nameless (signed name v) := by
  intro f
  unfold signed
  cases signed? v with
  | none => rfl
  | some n => rfl

theorem nameless_pairOf (vs : List Int64) : Nameless (pairOf name vs) := by
  intro f
  unfold pairOf
  split
  · rfl
  · rfl

theorem nameless_fourOf (vs : List Int64) : Nameless (fourOf name vs) := by
  intro f
  unfold fourOf
  split
  · rfl
  · rfl

theorem nameless_unsignedPair (vs : List Int64) : Nameless (unsignedPair name vs) := by
  refine (nameless_pairOf name vs).bind fun p => ?_
  refine (nameless_unsigned name p.1).bind fun a => ?_
  exact (nameless_unsigned name p.2).bind fun b => nameless_ok (a, b)

theorem nameless_castTarget (v : Int64) : Nameless (castTarget v) := by
  intro f
  unfold castTarget
  split
  · rfl
  · rfl
  · rfl
  · rfl
  · rfl

theorem nameless_resizeMode (mode : String) : Nameless (resizeMode mode) := by
  intro f
  unfold resizeMode
  split
  · rfl
  · split
    · rfl
    · rfl

end Rule

end Nameless

/-! ## Readings -/

namespace Reading

variable {f : String → String} {α β γ : Type} {value : β → γ} {n : Onnx.Node}
  {constants constants' : ConstantTable}

/-- What is computed in between is the same. -/
theorem renames_computed {r : Except Failure α} {g : α → Reading β} {g' : α → Reading γ} (hr : Nameless r)
    (hg : ∀ a, Renames f (Note.rename f) value (g a) (g' a)) :
    Renames f (Note.rename f) value (.ofExcept r >>= g) (.ofExcept r >>= g') :=
  (renames_ofExcept (hr f)).step hg

theorem renames_ignore (name : String) : Renames f (Note.rename f) id (ignore name) (ignore name) :=
  ⟨rfl, rfl⟩

theorem renames_optional (k : Kind) (name : String) : Renames f (Note.rename f) (Option.map (k.rename f))
    (optional n k name) (optional (n.rename f) k name) :=
  (renames_ignore name).step fun _ => renames_ofExcept (Onnx.Node.attribute?_rename f n k name)

theorem rename_plain (p : PlainKind) (v : p.kind.Value) : p.kind.rename f v = v := by
  cases p with
  | int => rfl
  | float => rfl
  | string => rfl
  | ints => rfl

theorem renames_withDefault (p : PlainKind) (name : String) (default : p.kind.Value) :
    Renames f (Note.rename f) id (withDefault n p.kind name default)
      (withDefault (n.rename f) p.kind name default) := by
  refine (renames_optional p.kind name).bind fun v => renames_pure ?_
  cases v with
  | none => rfl
  | some v => exact rename_plain p v

theorem renames_required (k : Kind) (name : String) : Renames f (Note.rename f) (k.rename f)
    (required n k name) (required (n.rename f) k name) :=
  (renames_optional k name).bind fun _ => renames_ofOption rfl rfl

theorem renames_expect (p : PlainKind) (name : String) (supported : p.kind.Value) :
    Renames f (Note.rename f) id (expect n p name supported) (expect (n.rename f) p name supported) := by
  refine (renames_withDefault p name supported).step fun v => ?_
  by_cases h : p.same v supported
  · rw [if_pos h]
    exact renames_pure rfl
  · rw [if_neg h]
    exact renames_fail rfl

/-- The constants of the second table are those of the first one under the new names. -/
def RenamedTable (f : String → String) (constants constants' : ConstantTable) : Prop :=
  ∀ name, constants' (f name) = (constants name).map (Constant.rename f)

theorem rename_scalarInput (h : RenamedTable f constants constants') (k : Kind) (name : String) (index : Nat) :
    scalarInput (n.rename f) constants' k name index
      = renameResult f id (scalarInput n constants k name index) := by
  have hinput : (n.rename f).inputs[index]? = n.inputs[index]?.map f := List.getElem?_map ..
  unfold scalarInput
  rw [hinput]
  cases n.inputs[index]? with
  | none => rfl
  | some input =>
    dsimp only [Option.map_some]
    rw [h input]
    cases constants input with
    | none => rfl
    | some c =>
      dsimp only [Option.map_some]
      rw [show (c.rename f).scalar? = c.scalar? from rfl]
      cases c.scalar? with
      | none => rfl
      | some s =>
        dsimp only
        cases k.ofScalar? s with
        | none => rfl
        | some v => rfl

theorem renames_requiredOrInput (h : RenamedTable f constants constants') (p : PlainKind) (name : String)
    (index : Nat) : Renames f (Note.rename f) id (requiredOrInput n constants p.kind name index)
      (requiredOrInput (n.rename f) constants' p.kind name index) := by
  refine (renames_optional p.kind name).bind fun v => ?_
  cases v with
  | none => exact renames_ofExcept (rename_scalarInput h p.kind name index)
  | some v => exact renames_pure (rename_plain p v)

theorem renames_reported {α' : Type} {w : α → α'} {x : Reported α} {y : Reported α'}
    (h : Renames f (Diagnostic.rename f) w x y) : Renames f (Note.rename f) w (reported x) (reported y) :=
  h.mapLog fun _ => rfl

end Reading

/-! ## Parts of rules -/

namespace Rule

open Reading

variable {f : String → String} {n : Onnx.Node}

theorem renames_padding : Renames f (Note.rename f) id (padding n) (padding (n.rename f)) := by
  refine (renames_withDefault .string "auto_pad" "NOTSET").step fun mode => ?_
  split
  · exact renames_pure rfl
  · split
    · refine (renames_withDefault .ints "pads" [0, 0, 0, 0]).step fun pads => renames_ofExcept ?_
      apply Nameless.bind (nameless_fourOf "pads" pads)
      intro p
      refine (nameless_unsigned "pads" p.1).bind fun top => ?_
      refine (nameless_unsigned "pads" p.2.1).bind fun left => ?_
      refine (nameless_unsigned "pads" p.2.2.1).bind fun right => ?_
      exact (nameless_unsigned "pads" p.2.2.2).bind fun bottom => nameless_ok _
    · exact renames_fail rfl

theorem renames_stride : Renames f (Note.rename f) id (stride n) (stride (n.rename f)) := by
  refine (renames_withDefault .ints "strides" [1, 1]).step fun strides => ?_
  exact renames_ofExcept (nameless_unsignedPair "strides" strides f)

theorem renames_uniformStride :
    Renames f (Note.rename f) id (uniformStride n) (uniformStride (n.rename f)) := by
  refine (renames_withDefault .ints "strides" [1, 1]).step fun strides => renames_ofExcept ?_
  apply Nameless.bind (nameless_pairOf "strides" strides)
  rintro ⟨a, b⟩
  by_cases h : a = b
  · simp only [h, if_true]
    exact nameless_unsigned "strides" b
  · simp only [h, if_false]
    exact fun _ => rfl

theorem renames_pool : Renames f (Note.rename f) id (pool n) (pool (n.rename f)) := by
  refine (renames_required .ints "kernel_shape").step fun kernel => ?_
  refine renames_computed (nameless_unsignedPair "kernel_shape" kernel) fun size => ?_
  refine renames_padding.step fun padding => ?_
  exact renames_stride.step fun stride => renames_pure rfl

theorem renames_axisOf (name : String) (v : Int64) :
    Renames f (Note.rename f) id (axisOf name v) (axisOf name v) :=
  renames_ofExcept (nameless_signed name v f)

theorem renames_axesOf (name : String) (vs : List Int64) :
    Renames f (Note.rename f) id (axesOf name vs) (axesOf name vs) :=
  renames_ofExcept (nameless_mapM (nameless_signed name) vs f)

theorem renames_sizesOf (name : String) (vs : List Int64) :
    Renames f (Note.rename f) id (sizesOf name vs) (sizesOf name vs) :=
  renames_ofExcept (nameless_mapM (nameless_unsigned name) vs f)

/-! ## Rules -/

variable (constants constants' : ConstantTable)

theorem renames_averagePool :
    Renames f (Note.rename f) id (averagePool n constants) (averagePool (n.rename f) constants') := by
  refine renames_pool.step fun attrs => ?_
  refine (renames_expect .int "ceil_mode" 0).step fun _ => ?_
  exact (renames_expect .int "count_include_pad" 0).step fun _ => renames_pure rfl

theorem renames_maxPool :
    Renames f (Note.rename f) id (maxPool n constants) (maxPool (n.rename f) constants') := by
  refine renames_pool.step fun attrs => ?_
  refine (renames_expect .int "ceil_mode" 0).step fun _ => ?_
  refine (renames_expect .ints "dilations" [1, 1]).step fun _ => ?_
  exact (renames_expect .int "storage_order" 0).step fun _ => renames_pure rfl

theorem renames_conv : Renames f (Note.rename f) id (conv n constants) (conv (n.rename f) constants') := by
  refine (renames_withDefault .int "group" 1).step fun groups => ?_
  refine renames_computed (nameless_unsigned "group" groups) fun groups => ?_
  refine renames_padding.step fun padding => ?_
  refine renames_uniformStride.step fun stride => ?_
  refine (renames_expect .ints "dilations" [1, 1]).step fun _ => ?_
  exact (renames_ignore "kernel_shape").step fun _ => renames_pure rfl

theorem renames_convTranspose :
    Renames f (Note.rename f) id (convTranspose n constants) (convTranspose (n.rename f) constants') := by
  refine renames_uniformStride.step fun stride => ?_
  refine (renames_expect .string "auto_pad" "NOTSET").step fun _ => ?_
  refine (renames_expect .ints "dilations" [1, 1]).step fun _ => ?_
  refine (renames_expect .int "group" 1).step fun _ => ?_
  refine (renames_ignore "kernel_shape").step fun _ => ?_
  refine (renames_expect .ints "output_padding" [0, 0, 0, 0]).step fun _ => ?_
  exact (renames_expect .ints "pads" [0, 0, 0, 0]).step fun _ => renames_pure rfl

theorem renames_gemm : Renames f (Note.rename f) id (gemm n constants) (gemm (n.rename f) constants') := by
  refine (renames_withDefault .float "alpha" .one).step fun alpha => ?_
  refine (renames_withDefault .float "beta" .one).step fun beta => ?_
  refine (renames_withDefault .int "transA" 0).step fun transposeA => ?_
  exact (renames_withDefault .int "transB" 0).step fun transposeB => renames_pure rfl

theorem renames_reduceMean :
    Renames f (Note.rename f) id (reduceMean n constants) (reduceMean (n.rename f) constants') := by
  refine (renames_optional .ints "axes").bind fun found => ?_
  have hrest : ∀ axes : Option (List Int32), Renames f (Note.rename f) id
      (do
        let keepDims : Int64 ← withDefault n .int "keepdims" 1
        expect n .int "noop_with_empty_axes" 0
        pure (Attrs.reduceMean axes (keepDims != 0)))
      (do
        let keepDims : Int64 ← withDefault (n.rename f) .int "keepdims" 1
        expect (n.rename f) .int "noop_with_empty_axes" 0
        pure (Attrs.reduceMean axes (keepDims != 0))) := by
    intro axes
    refine (renames_withDefault .int "keepdims" 1).step fun keepDims => ?_
    exact (renames_expect .int "noop_with_empty_axes" 0).step fun _ => renames_pure rfl
  cases found with
  | none => exact hrest none
  | some vs =>
    have haxes : Renames f (Note.rename f) id (some <$> axesOf "axes" vs) (some <$> axesOf "axes" vs) :=
      (renames_axesOf "axes" vs).step fun axes => renames_pure rfl
    exact haxes.step fun axes => hrest axes

theorem renames_resize :
    Renames f (Note.rename f) id (resize n constants) (resize (n.rename f) constants') := by
  refine (renames_withDefault .string "mode" "nearest").step fun mode => ?_
  refine renames_computed (nameless_resizeMode mode) fun mode => ?_
  refine (renames_expect .int "antialias" 0).step fun _ => ?_
  refine (renames_expect .ints "axes" [2, 3]).step fun _ => ?_
  refine (renames_expect .string "coordinate_transformation_mode" "half_pixel").step fun _ => ?_
  refine (renames_expect .float "cubic_coeff_a" _).step fun _ => ?_
  refine (renames_expect .int "exclude_outside" 0).step fun _ => ?_
  refine (renames_expect .float "extrapolation_value" .zero).step fun _ => ?_
  refine (renames_expect .string "keep_aspect_ratio_policy" "stretch").step fun _ => ?_
  exact (renames_expect .string "nearest_mode" "prefer_round_floor").step fun _ => renames_pure rfl

theorem renames_split : Renames f (Note.rename f) id (split n constants) (split (n.rename f) constants') := by
  refine (renames_withDefault .int "axis" 0).step fun axis => ?_
  refine (renames_axisOf "axis" axis).step fun axis => ?_
  refine (renames_withDefault .ints "split" []).step fun parts => ?_
  refine (renames_sizesOf "split" parts).step fun parts => ?_
  exact (renames_expect .int "num_outputs" 0).step fun _ => renames_pure rfl

/-- The one constant that a rule makes itself has the name of its tensor. -/
theorem renames_constantOfShape :
    Renames f (Note.rename f) id (constantOfShape n constants) (constantOfShape (n.rename f) constants') := by
  refine (renames_required .tensor "value").bind fun tensor => ?_
  refine (renames_reported (renames_toConstant f tensor)).bind fun constant => ?_
  have hsingle : Nameless (singleElement "value" constant) := by
    intro f
    unfold singleElement
    split
    · rfl
    · rfl
  exact renames_computed hsingle fun value => renames_pure rfl

theorem renames_clip {constants constants' : ConstantTable} (h : RenamedTable f constants constants') :
    Renames f (Note.rename f) id (clip n constants) (clip (n.rename f) constants') := by
  refine (renames_requiredOrInput h .float "min" 1).step fun min => ?_
  exact (renames_requiredOrInput h .float "max" 2).step fun max => renames_pure rfl

/-- A rule that reads one attribute and computes from its value. -/
theorem renames_one {α β : Type} {x y : Reading α} {r : α → Except Failure β} {g : β → Attrs}
    (hx : Renames f (Note.rename f) id x y) (hr : ∀ a, Nameless (r a)) :
    Renames f (Note.rename f) id (do let v ← x; let b ← Logged.ofExcept (r v); pure (g b))
      (do let v ← y; let b ← Logged.ofExcept (r v); pure (g b)) :=
  hx.step fun v => renames_computed (hr v) fun _ => renames_pure rfl

end Rule

open Reading Rule in
/-- A rule does under other names what it does under the given ones. -/
theorem OpType.renames_rule {f : String → String} {n : Onnx.Node} {constants constants' : ConstantTable}
    (t : OpType) (h : RenamedTable f constants constants') :
    Renames f (Note.rename f) id (t.rule n constants) (t.rule (n.rename f) constants') := by
  cases t with
  | averagePool => exact renames_averagePool constants constants'
  | maxPool => exact renames_maxPool constants constants'
  | conv => exact renames_conv constants constants'
  | convTranspose => exact renames_convTranspose constants constants'
  | gemm => exact renames_gemm constants constants'
  | reduceMean => exact renames_reduceMean constants constants'
  | resize => exact renames_resize constants constants'
  | split => exact renames_split constants constants'
  | constantOfShape => exact renames_constantOfShape constants constants'
  | clip => exact renames_clip h
  | batchNormalization => exact (renames_withDefault .float "epsilon" _).step fun _ => renames_pure rfl
  | leakyRelu => exact (renames_withDefault .float "alpha" _).step fun _ => renames_pure rfl
  | cast => exact renames_one (renames_withDefault .int "to" 1) nameless_castTarget
  | concat => exact renames_one (renames_required .int "axis") (nameless_signed "axis")
  | gather => exact renames_one (renames_withDefault .int "axis" 0) (nameless_signed "axis")
  | softmax => exact renames_one (renames_withDefault .int "axis" 0) (nameless_signed "axis")
  | squeeze =>
    exact renames_one (renames_withDefault .ints "axes" []) (nameless_mapM (nameless_signed "axes"))
  | unsqueeze =>
    exact renames_one (renames_withDefault .ints "axes" []) (nameless_mapM (nameless_signed "axes"))
  | transpose =>
    exact renames_one (renames_withDefault .ints "perm" []) (nameless_mapM (nameless_unsigned "perm"))
  | pad => exact (renames_expect .string "mode" "constant").step fun _ => renames_pure rfl
  | reshape => exact (renames_expect .int "allowzero" 0).step fun _ => renames_pure rfl
  | shape =>
    refine (renames_expect .int "end" 0).step fun _ => ?_
    exact (renames_expect .int "start" 0).step fun _ => renames_pure rfl
  | add | cos | div | equal | erf | expand | globalAveragePool | identity | less | matMul | mul | pow
  | range | relu | sigmoid | sin | slice | sqrt | sub | where_ => exact renames_pure rfl

end NetPack
