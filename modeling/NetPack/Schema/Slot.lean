/-!
# The slots of the format

The fields of each kind of table, by slot. A union takes two slots: that of its kind and that of its
value. A slot once given is never given to another field.
-/

namespace NetPack.Schema.Slot

namespace Model

def schemaVersion : Nat := 0
def graph : Nat := 1

end Model

namespace Graph

def nodes : Nat := 0
def inputs : Nat := 1
def outputs : Nat := 2

end Graph

namespace Node

def name : Nat := 0
def dataType : Nat := 1
def data : Nat := 2

end Node

namespace Constant

def shape : Nat := 0
def dataType : Nat := 1
def data : Nat := 2

end Constant

/-! The tables of float and of integer elements have the same slots. -/

namespace Data

def data : Nat := 0

end Data

namespace Operator

def type : Nat := 0
def attrsType : Nat := 1
def attrs : Nat := 2
def inputs : Nat := 3
def outputs : Nat := 4

end Operator

/-! The two kinds of pooling have the same slots. -/

namespace Pool

def kernelSize : Nat := 0
def padMode : Nat := 1
def pads : Nat := 2
def stride : Nat := 3

end Pool

namespace BatchNormalization

def epsilon : Nat := 0

end BatchNormalization

namespace Cast

def target : Nat := 0

end Cast

namespace Clip

def min : Nat := 0
def max : Nat := 1

end Clip

namespace Concat

def dim : Nat := 0

end Concat

/-! The tables of an integer and of a float have the same slots. -/

namespace Scalar

def value : Nat := 0

end Scalar

namespace ConstantOfShape

def valueType : Nat := 0
def value : Nat := 1

end ConstantOfShape

namespace Conv

def groups : Nat := 0
def padMode : Nat := 1
def pads : Nat := 2
def stride : Nat := 3

end Conv

namespace ConvTranspose

def stride : Nat := 0

end ConvTranspose

/-! Operators that have an axis and nothing else have the same slots. -/

namespace Axis

def axis : Nat := 0

end Axis

namespace Gemm

def alpha : Nat := 0
def beta : Nat := 1
def transposeA : Nat := 2
def transposeB : Nat := 3

end Gemm

namespace LeakyRelu

def alpha : Nat := 0

end LeakyRelu

namespace ReduceMean

def axes : Nat := 0
def keepDims : Nat := 1

end ReduceMean

namespace Resize

def mode : Nat := 0

end Resize

namespace Split

def axis : Nat := 0
def split : Nat := 1

end Split

/-! Operators that have a list of axes and nothing else have the same slots. -/

namespace Axes

def axes : Nat := 0

end Axes

namespace Transpose

def perm : Nat := 0

end Transpose

end NetPack.Schema.Slot
