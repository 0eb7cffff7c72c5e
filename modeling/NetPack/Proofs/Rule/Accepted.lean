import NetPack.Proofs.Decides
import NetPack.Proofs.Matching
import NetPack.Proofs.Rule.Conditions

/-!
# What rules accept

A rule gives a result exactly if every attribute that it knows meets its condition, in whatever order it looks
at them, and then it carries the numbers over (`OpType.rule_accepts`). Each step of a rule has its condition and
its relation (`Accepts`), and those of a sequence are put together from them. On the way it asks for the names of
these conditions, and stops at the first one that is not met (`Follows`).
-/

namespace NetPack

/-! ## Checks of values -/

namespace Rule

theorem decides_unsigned (name : String) (v : Int64) :
    Decides (unsigned name v) (FitsUnsigned v) fun n => (n.toNat : Int) = v.toInt := by
  unfold unsigned
  by_cases h : FitsUnsigned v
  · rw [unsigned?_of_fits h]
    exact Decides.of_ok rfl h (toNat_unsignedOf h)
  · rw [unsigned?_of_not_fits h]
    exact Decides.of_error rfl h

theorem decides_signed (name : String) (v : Int64) :
    Decides (signed name v) (FitsSigned v) fun n => n.toInt = v.toInt := by
  unfold signed
  by_cases h : FitsSigned v
  · rw [signed?_of_fits h]
    exact Decides.of_ok rfl h (toInt_signedOf h)
  · rw [signed?_of_not_fits h]
    exact Decides.of_error rfl h

theorem decides_pairOf (name : String) (vs : List Int64) :
    Decides (pairOf name vs) (vs.length = 2) fun p => vs = [p.1, p.2] := by
  match vs with
  | [a, b] => exact Decides.of_ok rfl rfl rfl
  | [] | [_] => exact Decides.of_error rfl (by simp)
  | _ :: _ :: _ :: _ => exact Decides.of_error rfl (by simp)

theorem decides_fourOf (name : String) (vs : List Int64) :
    Decides (fourOf name vs) (vs.length = 4) fun p => vs = [p.1, p.2.1, p.2.2.1, p.2.2.2] := by
  match vs with
  | [a, b, c, d] => exact Decides.of_ok rfl rfl rfl
  | [] | [_] | [_, _] | [_, _, _] => exact Decides.of_error rfl (by simp)
  | _ :: _ :: _ :: _ :: _ :: _ => exact Decides.of_error rfl (by simp)

theorem decides_unsignedPair (name : String) (vs : List Int64) :
    Decides (unsignedPair name vs) (Condition.Sizes 2 vs) fun p => SameSizes vs [p.1, p.2] := by
  refine (decides_pairOf name vs).bind ?_
  rintro ⟨a, b⟩ - rfl
  have hrest : Decides (do let m ← unsigned name a; let k ← unsigned name b; pure (m, k))
      (FitsUnsigned a ∧ FitsUnsigned b ∧ True) fun p => SameSizes [a, b] [p.1, p.2] := by
    refine (decides_unsigned name a).bind fun m _ hm => ?_
    refine (decides_unsigned name b).bind fun k _ hk => .of_ok rfl trivial ?_
    simp [SameSizes, hm, hk]
  exact hrest.congr (by simp) fun _ _ h => h

/-- The padding of an operator whose output does not keep the size, from the amounts. -/
def fixedPadding (pads : List Int64) : Except Failure Padding := do
  let (top, left, right, bottom) ← fourOf "pads" pads
  let top ← unsigned "pads" top
  let left ← unsigned "pads" left
  let right ← unsigned "pads" right
  let bottom ← unsigned "pads" bottom
  pure (.fixed top left bottom right)

theorem decides_fixedPadding (vs : List Int64) : Decides (fixedPadding vs) (Condition.Sizes 4 vs) fun p =>
    ∃ top left bottom right, p = .fixed top left bottom right ∧
      SameSizes vs [top, left, right, bottom] := by
  refine (decides_fourOf "pads" vs).bind ?_
  rintro ⟨a, b, c, d⟩ - rfl
  have hrest : Decides (do
      let top ← unsigned "pads" a
      let left ← unsigned "pads" b
      let right ← unsigned "pads" c
      let bottom ← unsigned "pads" d
      pure (Padding.fixed top left bottom right))
      (FitsUnsigned a ∧ FitsUnsigned b ∧ FitsUnsigned c ∧ FitsUnsigned d ∧ True) fun p =>
        ∃ top left bottom right, p = .fixed top left bottom right ∧
          SameSizes [a, b, c, d] [top, left, right, bottom] := by
    refine (decides_unsigned "pads" a).bind fun top _ htop => ?_
    refine (decides_unsigned "pads" b).bind fun left _ hleft => ?_
    refine (decides_unsigned "pads" c).bind fun right _ hright => ?_
    refine (decides_unsigned "pads" d).bind fun bottom _ hbottom => .of_ok rfl trivial ?_
    exact ⟨top, left, bottom, right, rfl, by simp [SameSizes, htop, hleft, hright, hbottom]⟩
  exact hrest.congr (by simp) fun _ _ h => h

/-- Whether a padding mode keeps the size. -/
def paddingMode (mode : String) : Except Failure Bool :=
  if mode = "SAME_UPPER" ∨ mode = "SAME_LOWER" then .ok true
  else if mode = "NOTSET" then .ok false
  else .error (.unsupportedPadMode mode)

theorem decides_paddingMode (mode : String) :
    Decides (paddingMode mode) (mode ∈ ["NOTSET", "SAME_UPPER", "SAME_LOWER"]) fun keeps =>
      keeps ↔ mode = "SAME_UPPER" ∨ mode = "SAME_LOWER" := by
  unfold paddingMode
  by_cases hsame : mode = "SAME_UPPER" ∨ mode = "SAME_LOWER"
  · rw [if_pos hsame]
    exact .of_ok rfl (List.mem_cons_of_mem _ (by simpa using hsame)) (iff_of_true rfl hsame)
  · rw [if_neg hsame]
    by_cases hnot : mode = "NOTSET"
    · rw [if_pos hnot]
      exact .of_ok rfl (by simp [hnot]) (iff_of_false nofun hsame)
    · rw [if_neg hnot]
      exact .of_error rfl (by simpa [hnot] using hsame)

theorem decides_uniform (vs : List Int64) :
    Decides (do
      let (a, b) ← pairOf "strides" vs
      if a = b then unsigned "strides" a else .error (.nonUniformStride vs))
      (∃ v, vs = [v, v] ∧ FitsUnsigned v) fun m => SameSizes vs [m, m] := by
  have hpair : (vs.length = 2 ∧ ∃ v, vs = [v, v] ∧ FitsUnsigned v) ↔
      ∃ v, vs = [v, v] ∧ FitsUnsigned v := by
    constructor
    · exact And.right
    · rintro ⟨v, rfl, hv⟩
      exact ⟨rfl, v, rfl, hv⟩
  refine ((decides_pairOf "strides" vs).bind ?_).congr hpair fun _ _ h => h
  rintro ⟨a, b⟩ - rfl
  dsimp only
  by_cases hab : a = b
  · subst hab
    rw [if_pos rfl]
    exact (decides_unsigned "strides" a).congr (by simp) fun m _ hm => by simp [SameSizes, hm]
  · rw [if_neg hab]
    refine .of_error rfl ?_
    rintro ⟨v, hv, -⟩
    rw [List.cons.injEq, List.cons.injEq] at hv
    exact hab (hv.1.trans hv.2.1.symm)

theorem decides_sizes (name : String) (vs : List Int64) :
    Decides (vs.mapM (unsigned name)) (∀ v ∈ vs, FitsUnsigned v) (SameSizes vs) :=
  (Decides.mapM (decides_unsigned name) vs).congr Iff.rfl fun _ _ h =>
    map_eq_of_forall₂ h fun _ _ _ hv => hv.symm

theorem decides_axes (name : String) (vs : List Int64) :
    Decides (vs.mapM (signed name)) (∀ v ∈ vs, FitsSigned v) (SameAxes vs) :=
  (Decides.mapM (decides_signed name) vs).congr Iff.rfl fun _ _ h =>
    map_eq_of_forall₂ h fun _ _ _ hv => hv.symm

theorem decides_castTarget (v : Int64) :
    Decides (castTarget v) (Condition.IsCastTarget v) fun target => target = .float ↔ v = 1 := by
  have htarget : Condition.IsCastTarget v ↔ ∃ type ∈ [Onnx.ElementType.float, .bool, .int32, .int64],
      Onnx.ElementType.ofNumber? v.toInt = some type := by
    simp only [Onnx.ElementType.ofNumber?_eq_some_iff]
    rfl
  have hone : v = 1 ↔ Onnx.ElementType.ofNumber? v.toInt = some .float := by
    rw [Onnx.ElementType.ofNumber?_eq_some_iff, ← Int64.toInt_inj]
    rfl
  rw [htarget]
  simp only [hone]
  unfold castTarget
  cases Onnx.ElementType.ofNumber? v.toInt with
  | none => exact .of_error rfl (by simp)
  | some type =>
    cases type with
    | float => exact .of_ok rfl (by simp) (by simp)
    | bool | int32 | int64 => exact .of_ok rfl (by simp) (by simp)
    | _ => exact .of_error rfl (by simp)

theorem decides_resizeMode (mode : String) :
    Decides (resizeMode mode) (mode ∈ ["nearest", "linear"]) fun m => m = .nearest ↔ mode = "nearest" := by
  unfold resizeMode
  by_cases hnearest : mode = "nearest"
  · rw [if_pos hnearest]
    exact .of_ok rfl (by simp [hnearest]) (iff_of_true rfl hnearest)
  · rw [if_neg hnearest]
    by_cases hlinear : mode = "linear"
    · rw [if_pos hlinear]
      exact .of_ok rfl (by simp [hlinear]) (iff_of_false nofun hnearest)
    · rw [if_neg hlinear]
      exact .of_error rfl (by simp [hnearest, hlinear])

theorem decides_singleElement (name : String) (c : Constant) :
    Decides (singleElement name c) (c.elements.length = 1) fun s => c.elements.scalars = [s] := by
  have hget := c.elements.get?_eq 0
  rw [← Elements.length_scalars]
  unfold singleElement
  rw [hget, ← Elements.length_scalars]
  match c.elements.scalars with
  | [s] => exact .of_ok rfl rfl rfl
  | [] => exact .of_error rfl (by simp)
  | _ :: _ :: _ => exact .of_error rfl (by simp)

end Rule

/-! ## Readings -/

namespace Reading

variable {n : Onnx.Node} {α β : Type} {c : Condition} {cs cs' : List Condition} {Q : α → Prop}
  {Q' : β → Prop}

/-- A reading of an operator gives a result exactly if the operator meets the conditions, and the result is as
it should be. -/
def Accepts (n : Onnx.Node) (x : Reading α) (cs : List Condition) (Q : α → Prop) : Prop :=
  Decides x.result (∀ c ∈ cs, c.Met n) Q

/-- A reading that goes through the conditions in their order: it asks for their names, up to the first one
that is not met, and finds nothing. -/
structure Follows (n : Onnx.Node) (x : Reading α) (cs : List Condition) (Q : α → Prop) : Prop where
  accepts : Accepts n x cs Q
  asks : ∃ names, Condition.Reached n cs names ∧ x.log = names.map .lookedAt

theorem result_bind (x : Reading α) (f : α → Reading β) :
    (x >>= f).result = x.result >>= fun a => (f a).result := by
  cases h : x.result with
  | error e => rw [Logged.bind_of_error f h]; rfl
  | ok a => rw [Logged.bind_of_ok f h]; rfl

theorem follows_pure {a : α} (h : Q a) : Follows n (pure a) [] Q where
  accepts := .of_ok rfl (fun _ hc => nomatch hc) h
  asks := ⟨[], .nil, rfl⟩

theorem Accepts.bind {x : Reading α} {f : α → Reading β} (hx : Accepts n x cs Q)
    (hf : ∀ a, (∀ c ∈ cs, c.Met n) → Q a → Accepts n (f a) cs' Q') :
    Accepts n (x >>= f) (cs ++ cs') Q' := by
  unfold Accepts
  rw [result_bind]
  exact (Decides.bind hx hf).congr List.forall_mem_append.symm fun _ _ h => h

theorem Follows.bind {x : Reading α} {f : α → Reading β} (hx : Follows n x cs Q)
    (hf : ∀ a, (∀ c ∈ cs, c.Met n) → Q a → Follows n (f a) cs' Q') :
    Follows n (x >>= f) (cs ++ cs') Q' where
  accepts := hx.accepts.bind fun a hmet ha => (hf a hmet ha).accepts
  asks := by
    obtain ⟨names, hnames, hlog⟩ := hx.asks
    cases hresult : x.result with
    | error e =>
      -- The first part has stopped, so one of its conditions is not met.
      have hunmet : ¬∀ c ∈ cs, c.Met n := fun hmet => by
        obtain ⟨a, ha⟩ := hx.accepts.complete hmet
        cases hresult.symm.trans ha
      exact ⟨names, hnames.append_of_not_met hunmet cs', (Logged.log_bind_of_error f hresult).trans hlog⟩
    | ok a =>
      obtain ⟨hmet, ha⟩ := hx.accepts.sound a hresult
      obtain ⟨names', hnames', hlog'⟩ := (hf a hmet ha).asks
      refine ⟨names ++ names', hnames.append hmet hnames', ?_⟩
      rw [Logged.log_bind_of_ok f hresult, hlog, hlog', List.map_append]

theorem Follows.cons {x : Reading α} {f : α → Reading β} (hx : Follows n x [c] Q)
    (hf : ∀ a, Q a → Follows n (f a) cs Q') : Follows n (x >>= f) (c :: cs) Q' :=
  hx.bind fun a _ => hf a

/-- A reading whose last step only puts the result together. -/
theorem Follows.last {x : Reading α} {f : α → β} (hx : Follows n x cs Q) (hf : ∀ a, Q a → Q' (f a)) :
    Follows n (x >>= fun a => pure (f a)) cs Q' :=
  List.append_nil cs ▸ hx.bind fun a _ ha => follows_pure (hf a ha)

theorem Follows.imp {x : Reading α} {R : α → Prop} (h : Follows n x cs Q) (hR : ∀ a, Q a → R a) :
    Follows n x cs R where
  accepts := h.accepts.congr Iff.rfl fun a _ => hR a
  asks := h.asks

/-! ## Single attributes -/

variable {k : Kind} {name : String} {absent : Prop} {supported : k.Value → Prop} {d : k.Value}

/-- What is computed from an attribute, by whether the operator has it. -/
theorem accepts_attribute {f : Option k.Value → Reading α}
    (hnone : n.attribute? k name = .ok none → Decides (f none).result absent Q)
    (hsome : ∀ v, n.attribute? k name = .ok (some v) → Decides (f (some v)).result (supported v) Q) :
    Accepts n (optional n k name >>= f) [.ofKind name k absent supported] Q := by
  unfold Accepts
  rw [List.forall_mem_singleton, Condition.met_ofKind_iff, result_bind, result_optional]
  cases hread : n.attribute? k name with
  | error e =>
    -- The attribute is there but of another type, so neither case of the condition applies.
    refine .of_error rfl ?_
    rintro (⟨h, -⟩ | ⟨v, h, -⟩)
    · cases h
    · cases h
  | ok v? =>
    cases v? with
    | none =>
      refine (hnone hread).congr ⟨fun h => .inl ⟨rfl, h⟩, ?_⟩ fun _ _ h => h
      rintro (⟨-, h⟩ | ⟨v, h, -⟩)
      · exact h
      · cases h
    | some v =>
      refine (hsome v hread).congr ⟨fun h => .inr ⟨v, rfl, h⟩, ?_⟩ fun _ _ h => h
      rintro (⟨h, -⟩ | ⟨v', h, hv'⟩)
      · cases h
      · cases h
        exact hv'

theorem follows_attribute {f : Option k.Value → Reading α} (hquiet : ∀ v, (f v).log = [])
    (hnone : n.attribute? k name = .ok none → Decides (f none).result absent Q)
    (hsome : ∀ v, n.attribute? k name = .ok (some v) → Decides (f (some v)).result (supported v) Q) :
    Follows n (optional n k name >>= f) [.ofKind name k absent supported] Q where
  accepts := accepts_attribute hnone hsome
  asks := ⟨[name], Condition.reached_singleton n _, log_optional_bind n hquiet⟩

theorem withDefault_bind (f : k.Value → Reading α) :
    withDefault n k name d >>= f = optional n k name >>= fun v => f (v.getD d) := by
  rw [withDefault, bind_assoc]
  rfl

/-- What is computed from the value of an attribute that has a default. The default is supported. -/
theorem follows_default (k : Kind) (name : String) (d : k.Value) {supported : k.Value → Prop}
    {f : k.Value → Reading α} {R : k.Value → α → Prop} (hquiet : ∀ v, (f v).log = [])
    (hf : ∀ v, Decides (f v).result (supported v) (R v)) (hd : supported d) :
    Follows n (withDefault n k name d >>= f) [.optional name k supported] (R (n.valueD k name d)) := by
  rw [withDefault_bind]
  refine follows_attribute (fun v => hquiet (v.getD d)) (fun h => ?_) fun v h => ?_
  · rw [Onnx.Node.valueD, Onnx.Node.value?_of_none h]
    exact (hf d).congr (iff_of_true hd trivial) fun _ _ ha => ha
  · rw [Onnx.Node.valueD, Onnx.Node.value?_of_some h]
    exact hf v

theorem Follows.default (k : Kind) (name : String) (d : k.Value) {supported : k.Value → Prop}
    {f : k.Value → Except Failure α} {R : k.Value → α → Prop} {g : α → Reading β}
    (hf : ∀ v, Decides (f v) (supported v) (R v)) (hd : supported d)
    (hg : ∀ a, R (n.valueD k name d) a → Follows n (g a) cs Q') :
    Follows n (withDefault n k name d >>= fun v => .ofExcept (f v) >>= g) (.optional name k supported :: cs)
      Q' := by
  rw [← bind_assoc]
  exact (follows_default k name d (fun _ => rfl) hf hd).cons hg

theorem follows_withDefault (n : Onnx.Node) (k : Kind) (name : String) (d : k.Value) :
    Follows n (withDefault n k name d) [.optional name k fun _ => True] fun v => v = n.valueD k name d := by
  have hpure : withDefault n k name d = withDefault n k name d >>= pure := (bind_pure _).symm
  rw [hpure]
  exact follows_default k name d (R := fun v a => a = v) (fun _ => rfl)
    (fun v => .of_ok rfl trivial rfl) trivial

/-- What is computed from the value of an attribute that must be there. The default does not matter. -/
theorem follows_required (k : Kind) (name : String) (d : k.Value) {supported : k.Value → Prop}
    {f : k.Value → Except Failure α} {R : k.Value → α → Prop}
    (hf : ∀ v, Decides (f v) (supported v) (R v)) :
    Follows n (required n k name >>= fun v => .ofExcept (f v)) [.required name k supported]
      (R (n.valueD k name d)) := by
  rw [required, bind_assoc]
  refine follows_attribute (fun v => ?_) (fun h => ?_) fun v h => ?_
  · cases v with
    | none => rfl
    | some v => rfl
  · exact .of_error rfl id
  · rw [Onnx.Node.valueD, Onnx.Node.value?_of_some h]
    exact hf v

theorem Follows.required (k : Kind) (name : String) (d : k.Value) {supported : k.Value → Prop}
    {f : k.Value → Except Failure α} {R : k.Value → α → Prop} {g : α → Reading β}
    (hf : ∀ v, Decides (f v) (supported v) (R v))
    (hg : ∀ a, R (n.valueD k name d) a → Follows n (g a) cs Q') :
    Follows n (Reading.required n k name >>= fun v => .ofExcept (f v) >>= g)
      (.required name k supported :: cs) Q' := by
  rw [← bind_assoc]
  exact (follows_required k name d hf).cons hg

theorem follows_expect (n : Onnx.Node) (p : PlainKind) (name : String) {value : p.kind.Value}
    (h : p.same value value) : Follows n (expect n p name value) [.expected p name value] fun _ => True := by
  refine follows_default p.kind name value (R := fun _ _ => True) (fun v => ?_) (fun v => ?_) h
  · split
    · rfl
    · rfl
  · by_cases hsame : p.same v value
    · rw [if_pos hsame]
      exact .of_ok rfl hsame trivial
    · rw [if_neg hsame]
      exact .of_error rfl hsame

theorem follows_ignore (n : Onnx.Node) (name : String) :
    Follows n (ignore name) [.ignored name] fun _ => True where
  accepts := .of_ok rfl (fun _ hc => List.mem_singleton.mp hc ▸ trivial) trivial
  asks := ⟨[name], Condition.reached_singleton n _, rfl⟩

end Reading

namespace Rule

open Reading

variable {n : Onnx.Node}

/-! ## Parts of rules -/

theorem follows_stride : Follows n (stride n) [Condition.stride] fun p =>
    SameSizes (n.valueD .ints "strides" [1, 1]) [p.1, p.2] := by
  unfold stride Condition.stride
  exact follows_default .ints "strides" [1, 1]
    (R := fun vs (p : UInt32 × UInt32) => SameSizes vs [p.1, p.2]) (fun _ => rfl)
    (decides_unsignedPair "strides") (Condition.sizes_replicate fitsUnsigned_one 2)

theorem follows_uniformStride : Follows n (uniformStride n) [Condition.uniformStride] fun m =>
    SameSizes (n.valueD .ints "strides" [1, 1]) [m, m] := by
  unfold uniformStride Condition.uniformStride
  exact follows_default .ints "strides" [1, 1] (R := fun vs m => SameSizes vs [m, m]) (fun _ => rfl)
    decides_uniform ⟨1, rfl, fitsUnsigned_one⟩

/-- The mode is read first; it says whether the amounts are read. -/
theorem padding_eq (n : Onnx.Node) : padding n
    = (withDefault n .string "auto_pad" "NOTSET" >>= fun mode => .ofExcept (paddingMode mode)) >>=
      fun keeps =>
        if keeps then pure .same
        else withDefault n .ints "pads" [0, 0, 0, 0] >>= fun pads => .ofExcept (fixedPadding pads) := by
  rw [bind_assoc]
  refine congrArg (withDefault n .string "auto_pad" "NOTSET" >>= ·) (funext fun mode => ?_)
  unfold paddingMode
  by_cases hsame : mode = "SAME_UPPER" ∨ mode = "SAME_LOWER"
  · rw [if_pos hsame, if_pos hsame]
    rfl
  · rw [if_neg hsame, if_neg hsame]
    by_cases hnot : mode = "NOTSET"
    · rw [if_pos hnot, if_pos hnot]
      rfl
    · rw [if_neg hnot, if_neg hnot]
      rfl

theorem follows_paddingMode : Follows n
    (withDefault n .string "auto_pad" "NOTSET" >>= fun mode => .ofExcept (paddingMode mode))
    [.optional "auto_pad" .string (· ∈ ["NOTSET", "SAME_UPPER", "SAME_LOWER"])]
    fun keeps => keeps = n.keepsSize := by
  rw [withDefault_bind]
  refine follows_attribute (fun _ => rfl) (fun h => ?_) fun mode h => ?_
  · have hkeeps : n.keepsSize = false := by
      unfold Onnx.Node.keepsSize
      rw [h]
    exact .of_ok rfl trivial hkeeps.symm
  · refine (decides_paddingMode mode).congr Iff.rfl fun keeps _ hmode => ?_
    rw [Bool.eq_iff_iff, hmode]
    unfold Onnx.Node.keepsSize
    rw [h]
    simp

theorem follows_padding : Follows n (padding n) (Condition.padding n) n.CarriesPadding := by
  rw [padding_eq]
  unfold Condition.padding
  refine follows_paddingMode.cons fun keeps hkeeps => ?_
  subst hkeeps
  cases hkeeps : n.keepsSize with
  | true => exact follows_pure hkeeps
  | false =>
    refine (follows_default .ints "pads" [0, 0, 0, 0] (fun _ => rfl)
      decides_fixedPadding (Condition.sizes_replicate fitsUnsigned_zero 4)).imp ?_
    rintro _ ⟨top, left, bottom, right, rfl, hpads⟩
    exact ⟨by simp [hkeeps], hpads⟩

theorem follows_pool : Follows n (pool n) (Condition.pool n) n.CarriesPool := by
  refine Follows.required .ints "kernel_shape" []
    (R := fun vs (p : UInt32 × UInt32) => SameSizes vs [p.1, p.2])
    (decides_unsignedPair "kernel_shape") ?_
  rintro ⟨kernelHeight, kernelWidth⟩ hkernel
  refine follows_padding.bind fun padding _ hpadding => ?_
  refine follows_stride.last ?_
  rintro ⟨strideHeight, strideWidth⟩ hstride
  exact ⟨hkernel, hpadding, hstride⟩

theorem decides_scalarInput (constants : ConstantTable) {name : String} (index : Nat)
    (h : n.first? name = none) : Decides (scalarInput n constants .float name index)
      (∃ input c, n.inputs[index]? = some input ∧ constants input = some c ∧ c.shape = [])
      (n.CarriesBound constants name index) := by
  unfold scalarInput
  cases hinput : n.inputs[index]? with
  | none => exact .of_error rfl (by simp)
  | some input =>
    dsimp only
    cases hconstant : constants input with
    | none => exact .of_error rfl (by simp [hconstant])
    | some c =>
      by_cases hshape : c.shape = []
      · obtain ⟨s, hscalars, hscalar⟩ := c.scalar?_of_shape hshape
        dsimp only
        rw [hscalar]
        cases s with
        | float v =>
          exact .of_ok rfl ⟨input, c, rfl, hconstant, hshape⟩
            (.inr ⟨h, input, c, .float v, hinput, hconstant, hscalars, rfl⟩)
        | int v =>
          exact .of_ok rfl ⟨input, c, rfl, hconstant, hshape⟩
            (.inr ⟨h, input, c, .int v, hinput, hconstant, hscalars, Single.isNearest_ofInt32 v⟩)
      · have hscalar : c.scalar? = none := if_neg (by simpa using hshape)
        dsimp only
        rw [hscalar]
        exact .of_error rfl (by simp [hconstant, hshape])

theorem follows_bound (constants : ConstantTable) (name : String) (index : Nat) :
    Follows n (requiredOrInput n constants .float name index) [.bound n constants name index]
      (n.CarriesBound constants name index) := by
  unfold requiredOrInput
  refine follows_attribute (fun v => ?_) (fun h => ?_) fun v h => ?_
  · cases v with
    | none => rfl
    | some v => rfl
  · exact decides_scalarInput constants index (Onnx.Node.attribute?_eq_none_iff.mp h)
  · exact .of_ok rfl trivial (.inl (Onnx.Node.value?_of_some h))

theorem follows_axes (n : Onnx.Node) : Follows n
    (Reading.optional n .ints "axes" >>= fun found => match found with
      | some vs => some <$> axesOf "axes" vs
      | none => pure none)
    [.optional "axes" .ints fun vs => ∀ v ∈ vs, FitsSigned v]
    (Option.Rel SameAxes (n.value? .ints "axes")) := by
  refine follows_attribute (fun found => ?_) (fun h => ?_) fun vs h => ?_
  · cases found with
    | none => rfl
    | some vs =>
      unfold axesOf
      dsimp only
      cases vs.mapM (signed "axes") <;> rfl
  · rw [Onnx.Node.value?_of_none h]
    exact .of_ok rfl trivial .none
  · rw [Onnx.Node.value?_of_some h]
    have haxes : (some <$> axesOf "axes" vs).result = (vs.mapM (signed "axes")).map some := by
      unfold axesOf
      cases vs.mapM (signed "axes") <;> rfl
    dsimp only
    rw [haxes]
    exact (decides_axes "axes" vs).map fun _ => .some

theorem accepts_element (n : Onnx.Node) : Accepts n
    (required n .tensor "value" >>= fun t => reported t.toConstant >>= fun c =>
      .ofExcept (singleElement "value" c))
    [.required "value" .tensor Condition.HasOneElement] n.CarriesElement := by
  rw [required, bind_assoc]
  refine accepts_attribute (fun h => ?_) fun t h => ?_
  · exact .of_error rfl id
  have ht := Onnx.Node.value?_of_some h
  have hreported : (reported t.toConstant).result = t.toConstant.result := rfl
  have hread : (Logged.ofOption (.missingRequiredAttribute "value") (some t) >>= fun t =>
      reported t.toConstant >>= fun c => Logged.ofExcept (singleElement "value" c) : Reading Scalar)
      = reported t.toConstant >>= fun c => .ofExcept (singleElement "value" c) := pure_bind t _
  rw [hread, result_bind, hreported]
  unfold Condition.HasOneElement
  cases hconstant : t.toConstant.result with
  | error e => exact .of_error rfl (by simp)
  | ok c =>
    obtain ⟨l, hlayout, -, hscalars⟩ := (Onnx.Tensor.makes_of_toConstant hconstant).2.elements
    refine (decides_singleElement "value" c).congr (by simp) fun s _ hs => ?_
    exact ⟨t, l, ht, hlayout, hscalars.symm.trans hs⟩

/-! ## Rules -/

variable (n) (constants : ConstantTable)

theorem follows_averagePool : Follows n (averagePool n constants)
    (OpType.averagePool.conditions n constants) (OpType.averagePool.Carries n constants) := by
  refine follows_pool.bind fun attrs _ hattrs => ?_
  refine (follows_expect n .int "ceil_mode" rfl).cons fun _ _ => ?_
  exact (follows_expect n .int "count_include_pad" rfl).last fun _ _ => hattrs

theorem follows_maxPool : Follows n (maxPool n constants)
    (OpType.maxPool.conditions n constants) (OpType.maxPool.Carries n constants) := by
  refine follows_pool.bind fun attrs _ hattrs => ?_
  refine (follows_expect n .int "ceil_mode" rfl).cons fun _ _ => ?_
  refine (follows_expect n .ints "dilations" rfl).cons fun _ _ => ?_
  exact (follows_expect n .int "storage_order" rfl).last fun _ _ => hattrs

theorem follows_conv : Follows n (conv n constants)
    (OpType.conv.conditions n constants) (OpType.conv.Carries n constants) := by
  refine Follows.default .int "group" 1 (R := fun v (m : UInt32) => (m.toNat : Int) = v.toInt)
    (decides_unsigned "group") fitsUnsigned_one fun groups hgroups => ?_
  refine follows_padding.bind fun padding _ hpadding => ?_
  refine follows_uniformStride.cons fun stride hstride => ?_
  refine (follows_expect n .ints "dilations" rfl).cons fun _ _ => ?_
  exact (follows_ignore n "kernel_shape").last fun _ _ => ⟨hgroups, hpadding, hstride⟩

theorem follows_convTranspose : Follows n (convTranspose n constants)
    (OpType.convTranspose.conditions n constants) (OpType.convTranspose.Carries n constants) := by
  refine follows_uniformStride.cons fun stride hstride => ?_
  refine (follows_expect n .string "auto_pad" (by decide)).cons fun _ _ => ?_
  refine (follows_expect n .ints "dilations" rfl).cons fun _ _ => ?_
  refine (follows_expect n .int "group" rfl).cons fun _ _ => ?_
  refine (follows_ignore n "kernel_shape").cons fun _ _ => ?_
  refine (follows_expect n .ints "output_padding" rfl).cons fun _ _ => ?_
  exact (follows_expect n .ints "pads" rfl).last fun _ _ => hstride

theorem follows_gemm : Follows n (gemm n constants)
    (OpType.gemm.conditions n constants) (OpType.gemm.Carries n constants) := by
  refine (follows_withDefault n .float "alpha" .one).cons fun alpha halpha => ?_
  refine (follows_withDefault n .float "beta" .one).cons fun beta hbeta => ?_
  refine (follows_withDefault n .int "transA" 0).cons fun transposeA hA => ?_
  refine (follows_withDefault n .int "transB" 0).last fun transposeB hB => ?_
  exact ⟨halpha, hbeta, congrArg (· != 0) hA, congrArg (· != 0) hB⟩

theorem follows_reduceMean : Follows n (reduceMean n constants)
    (OpType.reduceMean.conditions n constants) (OpType.reduceMean.Carries n constants) := by
  have hread : reduceMean n constants = (Reading.optional n .ints "axes" >>= fun found => match found with
      | some vs => some <$> axesOf "axes" vs
      | none => pure none) >>= fun axes => (do
      let keepDims : Int64 ← withDefault n .int "keepdims" 1
      expect n .int "noop_with_empty_axes" 0
      pure (Attrs.reduceMean axes (keepDims != 0))) := by
    -- The rest of the rule follows in each branch of the match.
    rw [bind_assoc]
    refine congrArg (Reading.optional n .ints "axes" >>= ·) (funext fun found => ?_)
    cases found <;> rfl
  rw [hread]
  refine (follows_axes n).cons fun axes haxes => ?_
  refine (follows_withDefault n .int "keepdims" 1).cons fun keepDims hkeep => ?_
  refine (follows_expect n .int "noop_with_empty_axes" rfl).last fun _ _ => ?_
  exact ⟨haxes, congrArg (· != 0) hkeep⟩

theorem follows_resize : Follows n (resize n constants)
    (OpType.resize.conditions n constants) (OpType.resize.Carries n constants) := by
  refine Follows.default .string "mode" "nearest"
    (R := fun mode m => m = ResizeMode.nearest ↔ mode = "nearest")
    decides_resizeMode (by simp) fun mode hmode => ?_
  refine (follows_expect n .int "antialias" rfl).cons fun _ _ => ?_
  refine (follows_expect n .ints "axes" rfl).cons fun _ _ => ?_
  refine (follows_expect n .string "coordinate_transformation_mode" (by decide)).cons fun _ _ => ?_
  refine (follows_expect n .float "cubic_coeff_a" (by decide)).cons fun _ _ => ?_
  refine (follows_expect n .int "exclude_outside" rfl).cons fun _ _ => ?_
  refine (follows_expect n .float "extrapolation_value" (by decide)).cons fun _ _ => ?_
  refine (follows_expect n .string "keep_aspect_ratio_policy" (by decide)).cons fun _ _ => ?_
  exact (follows_expect n .string "nearest_mode" (by decide)).last fun _ _ => hmode

theorem follows_split : Follows n (split n constants)
    (OpType.split.conditions n constants) (OpType.split.Carries n constants) := by
  refine Follows.default .int "axis" 0 (R := fun v (m : Int32) => m.toInt = v.toInt)
    (decides_signed "axis") (by decide) fun axis haxis => ?_
  refine Follows.default .ints "split" [] (R := SameSizes)
    (decides_sizes "split") (fun v hv => nomatch hv) fun parts hparts => ?_
  exact (follows_expect n .int "num_outputs" rfl).last fun _ _ => ⟨haxis, hparts⟩

theorem accepts_constantOfShape : Accepts n (constantOfShape n constants)
    (OpType.constantOfShape.conditions n constants) (OpType.constantOfShape.Carries n constants) := by
  have hread : constantOfShape n constants = (required n .tensor "value" >>= fun t =>
      reported t.toConstant >>= fun c => .ofExcept (singleElement "value" c)) >>= fun value =>
      pure (Attrs.constantOfShape value) := by
    rw [bind_assoc]
    exact congrArg (required n .tensor "value" >>= ·) (funext fun t => (bind_assoc ..).symm)
  rw [hread]
  exact (accepts_element n).bind fun value _ hvalue => Follows.accepts (follows_pure hvalue)

end Rule

open Reading Rule in
/-- Only the rule of `ConstantOfShape` makes findings of its own. -/
theorem OpType.follows_rule (n : Onnx.Node) (constants : ConstantTable) {t : OpType}
    (ht : t ≠ .constantOfShape) : Follows n (t.rule n constants) (t.conditions n constants) (t.Carries n constants) := by
  cases t with
  | constantOfShape => exact absurd rfl ht
  | averagePool => exact follows_averagePool n constants
  | maxPool => exact follows_maxPool n constants
  | conv => exact follows_conv n constants
  | convTranspose => exact follows_convTranspose n constants
  | gemm => exact follows_gemm n constants
  | reduceMean => exact follows_reduceMean n constants
  | resize => exact follows_resize n constants
  | split => exact follows_split n constants
  | batchNormalization => exact (follows_withDefault n .float "epsilon" _).last fun _ h => h
  | leakyRelu => exact (follows_withDefault n .float "alpha" _).last fun _ h => h
  | cast =>
    exact Follows.default .int "to" 1 (R := fun v target => target = NumberType.float ↔ v = 1)
      decides_castTarget ⟨.float, by decide, rfl⟩ fun _ h => follows_pure h
  | clip =>
    refine (follows_bound constants "min" 1).cons fun min hmin => ?_
    exact (follows_bound constants "max" 2).last fun max hmax => ⟨hmin, hmax⟩
  | concat =>
    exact Follows.required .int "axis" 0 (R := fun v (m : Int32) => m.toInt = v.toInt)
      (decides_signed "axis") fun _ h => follows_pure h
  | gather | softmax =>
    exact Follows.default .int "axis" 0 (R := fun v (m : Int32) => m.toInt = v.toInt)
      (decides_signed "axis") (by decide) fun _ h => follows_pure h
  | squeeze | unsqueeze =>
    exact Follows.default .ints "axes" [] (R := SameAxes)
      (decides_axes "axes") (fun v hv => nomatch hv) fun _ h => follows_pure h
  | transpose =>
    exact Follows.default .ints "perm" [] (R := SameSizes)
      (decides_sizes "perm") (fun v hv => nomatch hv) fun _ h => follows_pure h
  | pad => exact (follows_expect n .string "mode" (by decide)).last fun _ _ => trivial
  | reshape => exact (follows_expect n .int "allowzero" rfl).last fun _ _ => trivial
  | shape =>
    refine (follows_expect n .int "end" rfl).cons fun _ _ => ?_
    exact (follows_expect n .int "start" rfl).last fun _ _ => trivial
  | add | cos | div | equal | erf | expand | globalAveragePool | identity | less | matMul | mul | pow
  | range | relu | sigmoid | sin | slice | sqrt | sub | where_ => exact follows_pure trivial

open Reading in
theorem OpType.accepts_rule (n : Onnx.Node) (constants : ConstantTable) (t : OpType) :
    Accepts n (t.rule n constants) (t.conditions n constants) (t.Carries n constants) := by
  by_cases ht : t = .constantOfShape
  · subst ht
    exact Rule.accepts_constantOfShape n constants
  · exact (t.follows_rule n constants ht).accepts

/-- A rule gives a result exactly if each attribute that it knows meets its condition, and the result carries
the numbers of the operator. -/
theorem OpType.rule_accepts (t : OpType) (n : Onnx.Node) (constants : ConstantTable) :
    ((∃ a, (t.rule n constants).result = .ok a) ↔ ∀ c ∈ t.conditions n constants, c.Met n) ∧
      ∀ a, (t.rule n constants).result = .ok a → t.Carries n constants a := by
  have hrule := t.accepts_rule n constants
  refine ⟨⟨?_, hrule.complete⟩, fun a ha => (hrule.sound a ha).2⟩
  rintro ⟨a, ha⟩
  exact (hrule.sound a ha).1

/-- The size of a kernel is not looked at where it follows from the weights, and an integer bound that is no
single-precision number is not kept. -/
theorem OpType.rule_ignores_and_rounds :
    (OpType.conv.rule { attributes := [{ name := "kernel_shape", type := 7, ints := [3] }] }
      fun _ => none).result = .ok (.conv 1 (.fixed 0 0 0 0) 1) ∧
    (OpType.clip.rule { inputs := ["x", "least", "greatest"] } (.ofList
      [⟨"least", [], .int [16777217], rfl⟩, ⟨"greatest", [], .float [⟨0x4c000000⟩], rfl⟩])).result
      = .ok (.clip ⟨0x4b800000⟩ ⟨0x4c000000⟩) ∧
    (⟨0x4b800000⟩ : Single).units = 16777216 * Nat.pow 2 149 := by
  refine ⟨?_, ?_, ?_⟩
  · rfl
  · rfl
  · rfl

end NetPack
