/-!
# The logical content of a buffer

A buffer holds a tree of objects: texts, vectors of 32-bit words, tables, and vectors of tables. A
table maps slots to bytes, words and further objects. A slot that a table does not hold stands for the
default of its field.
-/

namespace NetPack.Buffer

mutual

inductive Object
  | text (bytes : List UInt8)
  | words (values : List UInt32)
  | table (fields : Fields)
  | tables (items : Objects)

/-- The fields of a table, in the order in which the objects among them are written. -/
inductive Fields
  | nil
  | byte (slot : Nat) (value : UInt8) (rest : Fields)
  | word (slot : Nat) (value : UInt32) (rest : Fields)
  | child (slot : Nat) (value : Object) (rest : Fields)

inductive Objects
  | nil
  | cons (head : Object) (tail : Objects)

end

/-- What a slot of a table may hold. -/
inductive Entry
  | byte (value : UInt8)
  | word (value : UInt32)
  | child (value : Object)

/-- A table's fields from a list of slots and what they hold. -/
def Fields.ofList : List (Nat × Entry) → Fields
  | [] => .nil
  | (slot, .byte v) :: r => .byte slot v (ofList r)
  | (slot, .word v) :: r => .word slot v (ofList r)
  | (slot, .child v) :: r => .child slot v (ofList r)

def Objects.ofList : List Object → Objects
  | [] => .nil
  | o :: r => .cons o (ofList r)

end NetPack.Buffer
