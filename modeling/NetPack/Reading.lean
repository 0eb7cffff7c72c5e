import NetPack.Network.Constant
import NetPack.Onnx.Attribute
import NetPack.Single.Decimal

/-!
# Reading the attributes of an operator

A reading asks an operator for its attributes one by one. It notes each name that it asks for, before
anything can fail, so that the names nobody asked for can be reported (`unhandled`). It also notes
the findings that it makes on the way, in order with the names.
-/

namespace NetPack

/-- An entry in the log of a reading. -/
inductive Note
  /-- An attribute of this name was asked for, or knowingly passed over. -/
  | lookedAt (name : String)
  | found (d : Diagnostic)
deriving DecidableEq, Inhabited

namespace Note

def name? : Note → Option String
  | lookedAt n => some n
  | found _ => none

def diagnostic? : Note → Option Diagnostic
  | lookedAt _ => none
  | found d => some d

end Note

/-- The constants that an operator's inputs may name. -/
abbrev ConstantTable := String → Option Constant

/-- The table of a list of constants; of two constants of one name the later one counts. -/
def ConstantTable.ofList (cs : List Constant) : ConstantTable := fun name =>
  cs.reverse.find? fun c => c.name == name

/-- A computation on the attributes of an operator. -/
abbrev Reading := Logged Failure Note

/-- The attribute names of an operator that do not occur in the notes, in source order. -/
def Onnx.Node.unhandled (n : Onnx.Node) (notes : List Note) : List String :=
  let seen := notes.filterMap Note.name?
  (n.attributes.map (·.name)).filter fun a => !seen.contains a

/-- The kinds whose values can be compared and shown. -/
inductive PlainKind
  | int | float | string | ints
deriving DecidableEq, Inhabited, Repr

namespace PlainKind

@[reducible] def kind : PlainKind → Kind
  | int => .int
  | float => .float
  | string => .string
  | ints => .ints

/-- Equality of values; floats are equal as numbers. -/
def same : (p : PlainKind) → p.kind.Value → p.kind.Value → Bool
  | int, a, b => a == b
  | float, a, b => Single.equals a b
  | string, a, b => a == b
  | ints, a, b => a == b

/-- A value as messages show it. -/
def text : (p : PlainKind) → p.kind.Value → String
  | int, (v : Int64) => toString v.toInt
  | float, v => Single.text v
  | string, v => Text.quote v
  | ints, (vs : List Int64) => Text.bracketed (vs.map fun v => toString v.toInt)

end PlainKind

namespace Reading

/-- Passes over an attribute knowingly. -/
def ignore (name : String) : Reading Unit :=
  .tell (.lookedAt name)

/-- Takes the findings of another computation into the log. -/
def reported {α : Type} (x : Reported α) : Reading α :=
  x.mapLog .found

/-- The value of an attribute, if the operator has it. -/
def optional (n : Onnx.Node) (k : Kind) (name : String) : Reading (Option k.Value) := do
  ignore name
  .ofExcept (n.attribute? k name)

/-- The value of an attribute, or the default if the operator does not have it. -/
def withDefault (n : Onnx.Node) (k : Kind) (name : String) (default : k.Value) :
    Reading k.Value := do
  let v ← optional n k name
  pure (v.getD default)

/-- The value of an attribute that the operator must have. -/
def required (n : Onnx.Node) (k : Kind) (name : String) : Reading k.Value := do
  let v ← optional n k name
  .ofOption (.missingRequiredAttribute name) v

/-- The value of an input at a position, which must name a constant without dimensions. -/
def scalarInput (n : Onnx.Node) (constants : ConstantTable) (k : Kind) (name : String)
    (index : Nat) : Except Failure k.Value :=
  match n.inputs[index]? with
  | none => .error (.missingRequiredAttributeOrInput name)
  | some input =>
  match constants input with
  | none => .error (.notAConstant name)
  | some c =>
  match c.scalar? with
  | none => .error (.notScalar name)
  | some s =>
  match k.ofScalar? s with
  | none => .error (.typeMismatch name k s.word)
  | some v => .ok v

/-- The value of an attribute or, if the operator does not have it, of an input. -/
def requiredOrInput (n : Onnx.Node) (constants : ConstantTable) (k : Kind) (name : String)
    (index : Nat) : Reading k.Value := do
  match ← optional n k name with
  | some v => pure v
  | none => .ofExcept (scalarInput n constants k name index)

/-- Fails if an attribute has another value than the one the runtime supports. -/
def expect (n : Onnx.Node) (p : PlainKind) (name : String) (supported : p.kind.Value) :
    Reading Unit := do
  let v ← withDefault n p.kind name supported
  if p.same v supported then
    pure ()
  else
    .fail (.unsupportedAttributeValue name (p.text v) (p.text supported))

end Reading

end NetPack
