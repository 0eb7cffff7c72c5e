import NetPack.Schema.Union

/-!
# The enumerations of the format

A packed network stores a choice as one byte: the position of a name in an enumeration. A reader keeps a
byte that has no name, since a newer writer may have given it one.
-/

namespace NetPack.Schema

/-- Names in the order of their bytes. -/
structure Enumeration where
  name : String
  names : List String
deriving DecidableEq, Repr

namespace Enumeration

/-- The name of a byte. -/
def nameOf? (e : Enumeration) (b : UInt8) : Option String :=
  e.names[b.toNat]?

/-- A byte as it is shown: its name, or its number if it has none. -/
def text (e : Enumeration) (b : UInt8) : String :=
  match e.nameOf? b with
  | some n => n
  | none => "<UNKNOWN " ++ toString b.toNat ++ ">"

/-- All bytes that have a name. -/
def bytes (e : Enumeration) : List UInt8 :=
  (List.range e.names.length).map UInt8.ofNat

/-- The types of operators. -/
def operatorType : Enumeration :=
  ⟨"OperatorType", OpType.all.map OpType.name⟩

def padMode : Enumeration :=
  ⟨"PadMode", ["Same", "Fixed"]⟩

/-- The element types that a cast can go to. -/
def dataType : Enumeration :=
  ⟨"DataType", ["Int32", "Float"]⟩

def resizeMode : Enumeration :=
  ⟨"ResizeMode", ["Nearest", "Linear"]⟩

/-- The name of the byte that stands for no table. -/
def noTable : String :=
  "NONE"

/-- The tables that hold the attributes of an operator. -/
def operatorAttrs : Enumeration :=
  ⟨"OperatorAttrs", noTable :: AttrsTable.all.map AttrsTable.name⟩

/-- The tables that hold a scalar. -/
def scalar : Enumeration :=
  ⟨"Scalar", noTable :: ScalarTable.all.map ScalarTable.name⟩

/-- The tables that hold the elements of a constant. -/
def constantData : Enumeration :=
  ⟨"ConstantData", noTable :: DataTable.all.map DataTable.name⟩

/-- The tables that hold what is particular to a node. -/
def nodeKind : Enumeration :=
  ⟨"NodeKind", noTable :: NodeTable.all.map NodeTable.name⟩

def all : List Enumeration :=
  [operatorType, padMode, dataType, resizeMode, operatorAttrs, scalar, constantData, nodeKind]

/-- The enumeration of a name. -/
def ofName? (name : String) : Option Enumeration :=
  all.find? fun e => e.name == name

end Enumeration

end NetPack.Schema
