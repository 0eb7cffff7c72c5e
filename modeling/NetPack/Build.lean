import NetPack.Event
import NetPack.Registry
import NetPack.Rule.Operators

/-!
# Building a network

The nodes of a network stand in a fixed order: the constants of the initializers, those of the
operators of type `Constant`, the graph inputs that are no constants, and then each other operator
behind the values that it computes. An operator can only refer to nodes before it.
-/

namespace NetPack

/-- A step of building. -/
abbrev Build := StateT Registry Traced

namespace Build

/-- A step that leaves the registry alone. -/
def traced {α : Type} (x : Traced α) : Build α :=
  StateT.lift x

/-- A step that leaves the registry alone and reports findings. -/
def reported {α : Type} (x : Reported α) : Build α :=
  traced (x.mapLog .diagnostic)

/-- Registers a node. -/
def add (n : Node) : Build NodeId := fun r =>
  .ofExcept (r.add n)

/-- The position of a name that must be registered. -/
def position (missing : Failure) (name : String) : Build NodeId := fun r =>
  match r.find? name with
  | some id => pure (id, r)
  | none => .fail missing

/-- Registers a constant that is made here. -/
def addConstant (c : Reported Constant) : Build NodeId := do
  let c ← reported c
  add (.constant c)

/-- The position of a graph input, which is registered unless a node of its name is there. -/
def addInput (name : String) : Build NodeId := fun r =>
  match r.find? name with
  | some id => pure (id, r)
  | none => add (.value name) r

/-- The packed attributes of an operator. Attributes that its rule did not look at are reported after
the findings of the rule. -/
def attrs (n : Onnx.Node) (t : OpType) (constants : ConstantTable) : Reported Attrs := do
  let reading := t.rule n constants
  let a ← reading.filterMapLog Note.diagnostic?
  .tellAll ((n.unhandled reading.log).map (.unhandledAttribute n.name n.opType))
  pure a

/-- An operator whose outputs are registered. -/
def operator (n : Onnx.Node) (outputs : List NodeId) : Build Operator := do
  let inputs ← n.inputs.mapM fun i => position (.unknownInput n.name i) i
  let opType ← traced (.ofOption (.unsupportedOperator n.name n.opType) (OpType.ofName? n.opType))
  let r ← get
  let attrs ← reported (attrs n opType r.constant?)
  traced (.tell (.convertedOperator n.name opType inputs outputs))
  pure { name := n.name, opType, attrs, inputs, outputs }

/-- Registers the values that an operator computes and then the operator. -/
def addOperator (n : Onnx.Node) : Build Unit := do
  let outputs ← n.outputs.mapM fun o => add (.value o)
  let o ← operator n outputs
  let _ ← add (.operator o)

/-- Registers all nodes of a graph and finds the positions of its inputs and outputs. -/
def graph (g : Onnx.Graph) : Build (List NodeId × List NodeId) := do
  g.initializers.forM fun t => do
    let _ ← addConstant t.toConstant
  (g.nodes.filter fun n => n.isConstant).forM fun n => do
    let _ ← addConstant n.toConstant
  let inputs ← g.inputs.mapM addInput
  (g.nodes.filter fun n => !n.isConstant).forM addOperator
  let outputs ← g.outputs.mapM fun o => position (.unknownGraphOutput o) o
  pure (inputs, outputs)

end Build

/-- The network of a graph, without the last line of its log. -/
def Network.ofNodes (g : Onnx.Graph) : Traced Network := do
  let ((inputs, outputs), r) ← (Build.graph g).run .empty
  pure { nodes := r.nodes.toList, inputs, outputs }

/-- The network of a graph. -/
def Network.build (g : Onnx.Graph) : Traced Network := do
  let (network, log) ← (Network.ofNodes g).withLog
  Logged.tell (Event.builtGraph network.nodes.length network.inputs.length network.outputs.length
    (diagnosticsOf log).length)
  pure network

end NetPack
