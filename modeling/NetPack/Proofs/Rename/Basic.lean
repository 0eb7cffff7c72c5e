import NetPack.Build
import NetPack.Proofs.Onnx.Constant

/-!
# Renaming tensors and operators

A function on strings is applied to the names of tensors and operators, wherever a graph, a network, a finding
or a failure holds one. The names of attributes and operator types are no such names and stay as they are.

A computation renames another one if it records the renamed entries and gives the renamed value, or fails with
the renamed failure (`Renames`). What a tensor or an operator of type `Constant` makes is renamed with it
(`renames_toConstant`, `renames_constantOfNode`): names are never looked into.
-/

namespace NetPack

/-! ## What is renamed -/

namespace Onnx

def Tensor.rename (f : String → String) (t : Tensor) : Tensor :=
  { t with name := f t.name }

def Attribute.rename (f : String → String) (a : Attribute) : Attribute :=
  { a with tensor := a.tensor.map (Tensor.rename f) }

def Node.rename (f : String → String) (n : Node) : Node :=
  { n with
    name := f n.name
    inputs := n.inputs.map f
    outputs := n.outputs.map f
    attributes := n.attributes.map (Attribute.rename f) }

def Graph.rename (f : String → String) (g : Graph) : Graph where
  nodes := g.nodes.map (Node.rename f)
  initializers := g.initializers.map (Tensor.rename f)
  inputs := g.inputs.map f
  outputs := g.outputs.map f

end Onnx

def Constant.rename (f : String → String) (c : Constant) : Constant :=
  { c with name := f c.name }

def Operator.rename (f : String → String) (o : Operator) : Operator :=
  { o with name := f o.name }

def Node.rename (f : String → String) : Node → Node
  | constant c => constant (c.rename f)
  | operator o => operator (o.rename f)
  | value name => value (f name)

def Network.rename (f : String → String) (n : Network) : Network :=
  { n with nodes := n.nodes.map (Node.rename f) }

def Diagnostic.rename (f : String → String) : Diagnostic → Diagnostic
  | unhandledAttribute operator opType attr => unhandledAttribute (f operator) opType attr
  | valueClamped tensor value clampedTo => valueClamped (f tensor) value clampedTo

def Note.rename (f : String → String) : Note → Note
  | lookedAt name => lookedAt name
  | found d => found (d.rename f)

def Event.rename (f : String → String) : Event → Event
  | diagnostic d => diagnostic (d.rename f)
  | convertedOperator name opType inputs outputs => convertedOperator (f name) opType inputs outputs
  | e => e

def Failure.rename (f : String → String) : Failure → Failure
  | duplicateNodeName name => duplicateNodeName (f name)
  | unknownInput operator input => unknownInput (f operator) (f input)
  | unknownGraphOutput name => unknownGraphOutput (f name)
  | unsupportedOperator operator opType => unsupportedOperator (f operator) opType
  | unsupportedElementType tensor elementType => unsupportedElementType (f tensor) elementType
  | invalidTensorData tensor fault => invalidTensorData (f tensor) fault
  | noOutputs operator => noOutputs (f operator)
  | e => e

/-- A value of an attribute. Only a tensor has a name. -/
def Kind.rename (f : String → String) : (k : Kind) → k.Value → k.Value
  | .tensor, t => Onnx.Tensor.rename f t
  | .int, v => v
  | .float, v => v
  | .string, v => v
  | .ints, vs => vs

/-! ## Computations that rename -/

section Renames

variable {f : String → String} {α α' β β' ω ω' : Type} {entry : ω → ω} {value : α → α'} {value' : β → β'}

/-- A value is renamed by a function of its own. -/
def renameResult (f : String → String) (value : α → α') : Except Failure α → Except Failure α'
  | .ok a => .ok (value a)
  | .error e => .error (e.rename f)

/-- The second computation does what the first one does under other names. -/
structure Renames (f : String → String) (entry : ω → ω) (value : α → α') (x : Logged Failure ω α)
    (y : Logged Failure ω α') : Prop where
  log : y.log = x.log.map entry
  result : y.result = renameResult f value x.result

theorem renames_ofExcept {r : Except Failure α} {r' : Except Failure α'} (h : r' = renameResult f value r) :
    Renames f entry value (.ofExcept r) (.ofExcept r') :=
  ⟨rfl, h⟩

theorem renames_pure {a : α} {a' : α'} (h : a' = value a) : Renames f entry value (pure a) (pure a') :=
  ⟨rfl, congrArg Except.ok h⟩

theorem renames_fail {e e' : Failure} (h : e' = e.rename f) :
    Renames f entry value (Logged.fail e) (Logged.fail e') :=
  ⟨rfl, congrArg Except.error h⟩

theorem renames_tellAll {ws ws' : List ω} (h : ws' = ws.map entry) :
    Renames f entry id (Logged.tellAll ws) (Logged.tellAll ws') :=
  ⟨h, rfl⟩

theorem renames_ofOption {e e' : Failure} {a : Option α} {a' : Option α'} (he : e' = e.rename f)
    (ha : a' = a.map value) : Renames f entry value (Logged.ofOption e a) (Logged.ofOption e' a') := by
  subst ha
  cases a with
  | none => exact renames_fail he
  | some a => exact renames_pure rfl

theorem Renames.bind {x : Logged Failure ω α} {y : Logged Failure ω α'} {g : α → Logged Failure ω β}
    {g' : α' → Logged Failure ω β'} (h : Renames f entry value x y)
    (hg : ∀ a, Renames f entry value' (g a) (g' (value a))) : Renames f entry value' (x >>= g) (y >>= g') := by
  have hresult := h.result
  cases hx : x.result with
  | error e =>
    rw [hx] at hresult
    rw [Logged.bind_of_error g hx, Logged.bind_of_error g' hresult]
    exact ⟨h.log, rfl⟩
  | ok a =>
    rw [hx] at hresult
    rw [Logged.bind_of_ok g hx, Logged.bind_of_ok g' hresult]
    refine ⟨?_, (hg a).result⟩
    rw [List.map_append, h.log, (hg a).log]

/-- A computation whose value has no name goes on in the same way. -/
theorem Renames.step {x y : Logged Failure ω α} {g : α → Logged Failure ω β} {g' : α → Logged Failure ω β'}
    (h : Renames f entry id x y) (hg : ∀ a, Renames f entry value' (g a) (g' a)) :
    Renames f entry value' (x >>= g) (y >>= g') :=
  h.bind hg

theorem Renames.mapLog {entry' : ω' → ω'} {w : ω → ω'} {x : Logged Failure ω α} {y : Logged Failure ω α'}
    (h : Renames f entry value x y) (hw : ∀ v, w (entry v) = entry' (w v)) :
    Renames f entry' value (x.mapLog w) (y.mapLog w) := by
  refine ⟨?_, h.result⟩
  unfold Logged.mapLog
  rw [h.log, List.map_map, List.map_map]
  exact List.map_congr_left fun v _ => hw v

theorem Renames.filterMapLog {entry' : ω' → ω'} {w : ω → Option ω'} {x : Logged Failure ω α}
    {y : Logged Failure ω α'} (h : Renames f entry value x y)
    (hw : ∀ v, w (entry v) = (w v).map entry') :
    Renames f entry' value (x.filterMapLog w) (y.filterMapLog w) := by
  refine ⟨?_, h.result⟩
  unfold Logged.filterMapLog
  rw [h.log, List.filterMap_map, List.map_filterMap]
  exact congrArg (fun w => x.log.filterMap w) (funext hw)

theorem renameResult_map (w : α → β) (r : Except Failure α) :
    (renameResult f id r).map w = renameResult f id (r.map w) := by
  cases r with
  | error e => rfl
  | ok a => rfl

theorem renameResult_bind {r : Except Failure α} {g : α → Except Failure β} {g' : α' → Except Failure β'}
    (h : ∀ a, g' (value a) = renameResult f value' (g a)) :
    renameResult f value r >>= g' = renameResult f value' (r >>= g) := by
  cases r with
  | error e => rfl
  | ok a => exact h a

theorem renameResult_mapM {g g' : α → Except Failure β} (h : ∀ a, g' a = renameResult f id (g a))
    (l : List α) : l.mapM g' = renameResult f id (l.mapM g) := by
  induction l with
  | nil => rfl
  | cons a l ih =>
    rw [List.mapM_cons, List.mapM_cons, h a, ih]
    apply renameResult_bind
    intro b
    exact renameResult_bind fun bs => rfl

end Renames

/-! ## Constants -/

section Constants

variable (f : String → String) (name : String)

theorem renames_narrow (vs : List Int64) :
    Renames f (Diagnostic.rename f) id (narrow name vs) (narrow (f name) vs) := by
  rw [narrow_eq, narrow_eq]
  refine ⟨?_, rfl⟩
  unfold clampings
  rw [List.map_map]
  rfl

theorem rename_constantOf? (shape : List UInt32) (elements : Elements) :
    Constant.of? (f name) shape elements
      = renameResult f (Constant.rename f) (Constant.of? name shape elements) := by
  unfold Constant.of?
  split
  · rfl
  · split
    · rfl
    · rfl

variable (t : Onnx.Tensor)

theorem rename_rawNumbers (width : Nat) :
    t.rawNumbers (f name) width = renameResult f id (t.rawNumbers name width) := by
  unfold Onnx.Tensor.rawNumbers
  split
  · rfl
  · rfl

theorem rename_floats : t.floats (f name) = renameResult f id (t.floats name) := by
  unfold Onnx.Tensor.floats
  split
  · rw [rename_rawNumbers]
    exact renameResult_map _ _
  · rfl

theorem rename_int64s : t.int64s (f name) = renameResult f id (t.int64s name) := by
  unfold Onnx.Tensor.int64s
  split
  · rw [rename_rawNumbers]
    exact renameResult_map _ _
  · rfl

theorem rename_int32s (l : Onnx.IntegerLayout) :
    t.int32s (f name) l = renameResult f id (t.int32s name l) := by
  unfold Onnx.Tensor.int32s
  split
  · rw [rename_rawNumbers]
    exact renameResult_map _ _
  · rfl

theorem rename_shape : t.shape (f name) = renameResult f id (t.shape name) := by
  unfold Onnx.Tensor.shape
  apply renameResult_mapM
  intro d
  cases unsigned? d with
  | none => rfl
  | some n => rfl

theorem renames_elements : Renames f (Diagnostic.rename f) id (t.elements name) (t.elements (f name)) := by
  have hunsupported : Renames f (Diagnostic.rename f) id
      (Logged.fail (.unsupportedElementType name t.elementType) : Reported Elements)
      (Logged.fail (.unsupportedElementType (f name) t.elementType)) := renames_fail rfl
  unfold Onnx.Tensor.elements
  split
  · exact hunsupported
  · rw [rename_floats]
    exact renames_ofExcept (renameResult_map _ _)
  · refine (renames_ofExcept (rename_int64s f name t)).step fun values => ?_
    exact (renames_narrow f name values).step fun cs => renames_pure rfl
  · split
    · rw [rename_int32s]
      exact renames_ofExcept (renameResult_map _ _)
    · exact hunsupported

/-- The name that a tensor has itself does not count when it makes a constant of another name. -/
theorem renames_toConstantNamed : Renames f (Diagnostic.rename f) (Constant.rename f) (t.toConstantNamed name)
    ((t.rename f).toConstantNamed (f name)) := by
  refine (renames_ofExcept (rename_shape f name t)).step fun shape => ?_
  refine (renames_elements f name t).step fun elements => ?_
  exact renames_ofExcept (rename_constantOf? f name shape elements)

theorem renames_toConstant :
    Renames f (Diagnostic.rename f) (Constant.rename f) t.toConstant (t.rename f).toConstant :=
  renames_toConstantNamed f t.name t

end Constants

/-! ## Attributes -/

namespace Onnx

variable (f : String → String)

theorem Attribute.value?_rename (a : Attribute) :
    (a.rename f).value? = a.value?.map fun v => ⟨v.1, v.1.rename f v.2⟩ := by
  unfold Attribute.value?
  rw [show (a.rename f).type = a.type from rfl]
  split
  · rfl
  · rfl
  · rfl
  · rfl
  · rw [show (a.rename f).tensor = a.tensor.map (Tensor.rename f) from rfl, Option.map_map, Option.map_map]
    rfl
  · rfl

theorem Value.as?_rename (v : Value) (k : Kind) :
    Value.as? ⟨v.1, v.1.rename f v.2⟩ k = (v.as? k).map (k.rename f) := by
  obtain ⟨k', v⟩ := v
  unfold Value.as?
  by_cases h : k' = k
  · subst h
    rw [dif_pos rfl, dif_pos rfl]
    rfl
  · rw [dif_neg h, dif_neg h]
    rfl

/-- The value of an attribute is renamed; the failure to have one does not mention a tensor or an operator. -/
theorem Attribute.read_rename (a : Attribute) (k : Kind) :
    (a.rename f).read k = renameResult f (k.rename f) (a.read k) := by
  unfold Attribute.read
  rw [value?_rename]
  cases a.value? with
  | none => rfl
  | some v =>
    rw [Option.map_some]
    dsimp only
    rw [Value.as?_rename]
    cases v.as? k with
    | none => rfl
    | some x => rfl

theorem Node.attribute?_rename (n : Node) (k : Kind) (name : String) : (n.rename f).attribute? k name
    = renameResult f (Option.map (k.rename f)) (n.attribute? k name) := by
  have hfind : (n.rename f).attributes.find? (fun a => a.name == name)
      = (n.attributes.find? fun a => a.name == name).map (Attribute.rename f) := List.find?_map ..
  unfold Node.attribute?
  rw [hfind]
  cases n.attributes.find? fun a => a.name == name with
  | none => rfl
  | some a =>
    rw [Option.map_some]
    dsimp only
    rw [Attribute.read_rename]
    cases a.read k with
    | error e => rfl
    | ok v => rfl

/-! ## Operators of type `Constant` -/

theorem renames_constantOfInts (name : String) (shape : List UInt32) (vs : List Int64) :
    Renames f (Diagnostic.rename f) (Constant.rename f) (Node.constantOfInts name shape vs)
      (Node.constantOfInts (f name) shape vs) :=
  (renames_narrow f name vs).step fun cs => renames_ofExcept (rename_constantOf? f name shape (.int cs))

theorem renames_constantOfNode (n : Node) :
    Renames f (Diagnostic.rename f) (Constant.rename f) n.toConstant (n.rename f).toConstant := by
  have hhead : (n.rename f).outputs.head? = n.outputs.head?.map f := List.head?_map
  refine Renames.bind (renames_ofOption rfl hhead) fun name => ?_
  refine (renames_ofExcept (Node.attribute?_rename f n .tensor "value")).bind fun v => ?_
  cases v with
  | some t => exact renames_toConstantNamed f name t
  | none =>
  refine (renames_ofExcept (Node.attribute?_rename f n .float "value_float")).bind fun v => ?_
  cases v with
  | some v => exact renames_ofExcept (rename_constantOf? f name [] (.float [v]))
  | none =>
  refine (renames_ofExcept (Node.attribute?_rename f n .int "value_int")).bind fun v => ?_
  cases v with
  | some v => exact renames_constantOfInts f name [] [v]
  | none =>
  refine (renames_ofExcept (Node.attribute?_rename f n .ints "value_ints")).bind fun vs => ?_
  cases vs with
  | some vs =>
    simp only [Option.map_some, Kind.rename]
    split
    · exact renames_constantOfInts f name [UInt32.ofNat (List.length vs)] vs
    · exact renames_fail rfl
  | none => exact renames_fail rfl

end Onnx

end NetPack
