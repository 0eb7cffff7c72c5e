import NetPack.Diagnostic
import NetPack.Logged
import NetPack.Text.Quoted

/-!
# Failures

A failure ends the packing. It is kept as its cause, and `message` words it.
-/

namespace NetPack

/-- The kinds of attribute values that operator rules read. -/
inductive Kind
  | int | float | string | ints | tensor
deriving DecidableEq, Inhabited, Repr

def Kind.word : Kind → String
  | int => "int"
  | float => "float"
  | string => "string"
  | ints => "ints"
  | tensor => "tensor"

/-- Why a tensor does not make a constant. -/
inductive TensorFault
  | tooManyElements (shape : List UInt32)
  | wrongCount (shape : List UInt32) (required found : Nat)
  | dimension (value : Int64)
  | raggedRawData (length width : Nat)
  | tooManyValues (count : Nat)
deriving DecidableEq, Inhabited, Repr

/-- A shape as messages show it. -/
def shapeText (shape : List UInt32) : String :=
  Text.bracketed (shape.map fun d => toString d.toNat)

def TensorFault.message : TensorFault → String
  | tooManyElements shape => "shape " ++ shapeText shape ++ " has too many elements"
  | wrongCount shape required found =>
    "shape " ++ shapeText shape ++ " requires " ++ toString required ++ " elements, found "
      ++ toString found
  | dimension v => "dimension " ++ toString v.toInt ++ " is out of range"
  | raggedRawData n w =>
    "raw data length " ++ toString n ++ " is not a multiple of the element size " ++ toString w
  | tooManyValues n => toString n ++ " values do not fit a single dimension"

/-- Why a network cannot be packed. -/
inductive Failure
  | duplicateNodeName (name : String)
  | unknownInput (operator input : String)
  | unknownGraphOutput (name : String)
  | unsupportedOperator (operator opType : String)
  | unsupportedElementType (tensor : String) (elementType : Int32)
  | invalidTensorData (tensor : String) (fault : TensorFault)
  | unsupportedPadMode (mode : String)
  | unsupportedCastTarget (target : Int64)
  | nonUniformStride (strides : List Int64)
  | invalidAttributeLength (name : String) (expected actual : Nat)
  | missingRequiredAttribute (name : String)
  | missingRequiredAttributeOrInput (name : String)
  | typeMismatch (name : String) (expected : Kind) (actual : String)
  | notAConstant (name : String)
  | notScalar (name : String)
  | notSingleElement (name : String)
  | unsupportedAttributeValue (name value supported : String)
  | noOutputs (operator : String)
  | missingGraph
  | tooManyNodes
deriving DecidableEq, Inhabited

def Failure.message : Failure → String
  | duplicateNodeName n => "node name \"" ++ n ++ "\" conflicts with another node"
  | unknownInput op i => "unable to find input \"" ++ i ++ "\" for operator \"" ++ op ++ "\""
  | unknownGraphOutput n => "graph output \"" ++ n ++ "\" does not match any node"
  | unsupportedOperator op ty => "unsupported operator " ++ ty ++ " (operator \"" ++ op ++ "\")"
  | unsupportedElementType t ty =>
    "unsupported element type " ++ toString ty.toInt ++ " for tensor \"" ++ t ++ "\""
  | invalidTensorData t fault => "invalid data for tensor \"" ++ t ++ "\": " ++ fault.message
  | unsupportedPadMode m => "unsupported auto_pad value " ++ m
  | unsupportedCastTarget n => "unsupported target type " ++ toString n.toInt ++ " for cast"
  | nonUniformStride ns =>
    "strides must be the same in all dimensions, got "
      ++ Text.bracketed (ns.map fun n => toString n.toInt)
  | invalidAttributeLength n expected actual =>
    "attribute \"" ++ n ++ "\" must have " ++ toString expected ++ " values, got "
      ++ toString actual
  | missingRequiredAttribute n => "missing required attribute \"" ++ n ++ "\""
  | missingRequiredAttributeOrInput n => "missing required attribute or input \"" ++ n ++ "\""
  | typeMismatch n expected actual =>
    "attribute \"" ++ n ++ "\" has type " ++ actual ++ ", expected " ++ expected.word
  | notAConstant n => "input for \"" ++ n ++ "\" was not found or is not a constant"
  | notScalar n => "input for \"" ++ n ++ "\" is not a scalar"
  | notSingleElement n => "value of \"" ++ n ++ "\" must be a tensor with exactly one element"
  | unsupportedAttributeValue n v supported =>
    "unsupported value " ++ v ++ " for attribute \"" ++ n ++ "\", supported: " ++ supported
  | noOutputs op => "operator \"" ++ op ++ "\" has no outputs"
  | missingGraph => "model does not contain a graph"
  | tooManyNodes => "graph has more nodes than can be indexed"

/-- A computation that reports findings on the way and may end in a failure. -/
abbrev Reported := Logged Failure Diagnostic

end NetPack
