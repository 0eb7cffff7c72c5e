import NetPack.Network.Operator

/-!
# Constants

A constant has a shape and exactly as many elements as the shape asks for. The number of elements
is multiplied up from the left in 64 bits, and a shape whose product leaves them on the way has no
constants (`elementCount?`).
-/

namespace NetPack

/-- The elements of a constant. -/
inductive Elements
  | float (values : List Single)
  | int (values : List Int32)
deriving DecidableEq, Inhabited, Repr

namespace Elements

def length : Elements → Nat
  | float vs => vs.length
  | int vs => vs.length

def isEmpty (d : Elements) : Bool :=
  d.length = 0

/-- The element at a position. -/
def get? : Elements → Nat → Option Scalar
  | float vs, i => vs[i]?.map .float
  | int vs, i => vs[i]?.map .int

end Elements

/-- The bound on element counts. -/
def countLimit : Nat :=
  0x10000000000000000

/-- The product of the dimensions, if no product of the leading ones reaches the bound. -/
def elementCount? (shape : List UInt32) : Option Nat :=
  shape.foldlM (fun n d => if n * d.toNat < countLimit then some (n * d.toNat) else none) 1

/-- A named tensor that is known when the network is packed. -/
structure Constant where
  name : String
  shape : List UInt32
  elements : Elements
  count_eq : elementCount? shape = some elements.length
deriving DecidableEq

namespace Constant

/-- The one element of a constant without dimensions. A constant of shape `[1]` is not a scalar. -/
def scalar? (c : Constant) : Option Scalar :=
  if c.shape.isEmpty then c.elements.get? 0 else none

end Constant

end NetPack
