import NetPack.Failure
import NetPack.Network.Basic
import NetPack.Reading
import Std.Data.HashMap

/-!
# The registry of nodes

While a network is built, its nodes are kept in order together with an index from names to positions.
A name is registered once: a second node of the name is refused, and the registry stays as it was.
-/

namespace NetPack

/-- The nodes so far, and the position of each name among them. -/
structure Registry where
  nodes : Array Node
  index : Std.HashMap String NodeId

namespace Registry

def empty : Registry :=
  ⟨#[], ∅⟩

/-- The number of nodes that positions can tell apart. -/
def capacity : Nat :=
  0x100000000

/-- The position of the node of a name. -/
def find? (r : Registry) (name : String) : Option NodeId :=
  r.index[name]?

/-- The constant of a name. -/
def constant? (r : Registry) : ConstantTable := fun name => do
  let id ← r.find? name
  let node ← r.nodes[id.toNat]?
  node.constant?

/-- Puts a node behind the others, and gives its position. -/
def add (r : Registry) (n : Node) : Except Failure (NodeId × Registry) :=
  let id := UInt32.ofNat r.nodes.size
  if capacity ≤ r.nodes.size then .error .tooManyNodes
  else if r.index.contains n.name then .error (.duplicateNodeName n.name)
  else .ok (id, ⟨r.nodes.push n, r.index.insert n.name id⟩)

end Registry

end NetPack
