import NetPack.Failure
import NetPack.Network.Constant
import NetPack.Onnx.Basic
import NetPack.Text.Utf8

/-!
# Attribute values

The declared type of an attribute says which of its fields is its value. A value is asked for by
name and kind: the first attribute of the name counts, and a value of another kind is a failure,
never an absent value.
-/

namespace NetPack

/-- What a value of a kind is. -/
@[reducible] def Kind.Value : Kind → Type
  | .int => Int64
  | .float => Single
  | .string => String
  | .ints => List Int64
  | .tensor => Onnx.Tensor

/-- A scalar as a value of a kind: a number may be read as a float, but a float not as an integer. -/
def Kind.ofScalar? : (k : Kind) → Scalar → Option k.Value
  | .int, .int v => some (Int64.ofInt v.toInt)
  | .float, .int v => some (Single.ofInt32 v)
  | .float, .float v => some v
  | _, _ => none

/-- The words for the two sorts of scalars in messages. -/
def Scalar.word : Scalar → String
  | .int _ => "int scalar"
  | .float _ => "float scalar"

namespace Onnx

/-- A value together with its kind. -/
abbrev Value := (k : Kind) × k.Value

/-- A value as one of a kind that is asked for. -/
def Value.as? (v : Value) (k : Kind) : Option k.Value :=
  if h : v.1 = k then some (h ▸ v.2) else none

/-- The value of an attribute by its declared type, if that type is one of the kinds. -/
def Attribute.value? (a : Attribute) : Option Value :=
  match AttributeType.ofNumber? a.type.toInt with
  | some .int => some ⟨.int, a.int⟩
  | some .float => some ⟨.float, a.float⟩
  | some .string => some ⟨.string, String.ofList (Text.readUtf8 a.string)⟩
  | some .ints => some ⟨.ints, a.ints⟩
  | some .tensor => a.tensor.map fun t => ⟨.tensor, t⟩
  | _ => none

/-- The word for a declared type in messages. -/
def typeWord (type : Int32) : String :=
  match AttributeType.ofNumber? type.toInt with
  | some t => t.word
  | none => "unknown (" ++ toString type.toInt ++ ")"

/-- The value of an attribute, which must be of the kind that is asked for. -/
def Attribute.read (a : Attribute) (k : Kind) : Except Failure k.Value :=
  match a.value? with
  | none => .error (.typeMismatch a.name k (typeWord a.type))
  | some v =>
    match v.as? k with
    | some x => .ok x
    | none => .error (.typeMismatch a.name k v.1.word)

/-- The value of the first attribute of a name, if there is one. -/
def Node.attribute? (n : Node) (k : Kind) (name : String) : Except Failure (Option k.Value) :=
  match n.attributes.find? fun a => a.name == name with
  | none => .ok none
  | some a => (a.read k).map some

end Onnx

end NetPack
