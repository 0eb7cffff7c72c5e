import NetPack.Network.Constant

/-!
# Packed networks

A network is one list of nodes; the inputs and outputs of an operator, and those of the network,
are given by position in that list.
-/

namespace NetPack

/-- A position in the list of nodes. -/
abbrev NodeId := UInt32

/-- An operator with the positions of the nodes that it reads and writes. -/
structure Operator where
  name : String
  opType : OpType
  attrs : Attrs
  inputs : List NodeId
  outputs : List NodeId
deriving DecidableEq, Inhabited, Repr

/-- A value stands for a graph input or for what an operator computes. -/
inductive Node
  | constant (c : Constant)
  | operator (o : Operator)
  | value (name : String)
deriving DecidableEq

namespace Node

def name : Node → String
  | constant c => c.name
  | operator o => o.name
  | value n => n

def constant? : Node → Option Constant
  | constant c => some c
  | _ => none

def operator? : Node → Option Operator
  | operator o => some o
  | _ => none

end Node

structure Network where
  nodes : List Node
  inputs : List NodeId
  outputs : List NodeId
deriving DecidableEq

end NetPack
