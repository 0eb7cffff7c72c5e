import NetPack.Text.Utf8
import NetPack.Wire.Token

/-!
# Messages of the wire format

The messages of the ONNX format, with the types of their fields, and how a message is read: every field
is checked, also those that nothing looks at later, and a field of unknown number is passed over. The
fields of a message that is given twice are those of both, one after the other.
-/

namespace NetPack.Wire

/-! ## The fields of the messages -/

/-- The messages of the format. -/
inductive Message
  | model | graph | node | attr | tensor | valueInfo | typeInfo | tensorType | tensorShape
  | dimension | operatorSet | stringPair | segment | sparseTensor | tensorAnnotation | trainingInfo
  | function
deriving DecidableEq, Repr

/-- The types of fields. Numbers are integers of varying length, or of four or eight bytes. -/
inductive FieldType
  | varint | float | double | string | bytes | message (m : Message)
deriving DecidableEq, Repr

namespace Message

/-- The fields of a message by their numbers. -/
def fields : Message → List (Nat × FieldType)
  | model =>
    [(1, .varint), (2, .string), (3, .string), (4, .string), (5, .varint), (6, .string),
      (7, .message graph), (8, .message operatorSet), (14, .message stringPair),
      (20, .message trainingInfo), (25, .message function)]
  | graph =>
    [(1, .message node), (2, .string), (5, .message tensor), (10, .string), (11, .message valueInfo),
      (12, .message valueInfo), (13, .message valueInfo), (14, .message tensorAnnotation),
      (15, .message sparseTensor)]
  | node =>
    [(1, .string), (2, .string), (3, .string), (4, .string), (5, .message attr), (6, .string),
      (7, .string)]
  | attr =>
    [(1, .string), (2, .float), (3, .varint), (4, .bytes), (5, .message tensor), (6, .message graph),
      (7, .float), (8, .varint), (9, .bytes), (10, .message tensor), (11, .message graph),
      (13, .string), (15, .message typeInfo), (20, .varint), (21, .string),
      (22, .message sparseTensor), (23, .message sparseTensor)]
  | tensor =>
    [(1, .varint), (2, .varint), (3, .message segment), (4, .float), (5, .varint), (6, .bytes),
      (7, .varint), (8, .string), (9, .bytes), (10, .double), (11, .varint), (12, .string),
      (13, .message stringPair), (14, .varint)]
  | valueInfo => [(1, .string), (2, .message typeInfo), (3, .string)]
  | typeInfo => [(1, .message tensorType), (6, .string)]
  | tensorType => [(1, .varint), (2, .message tensorShape)]
  | tensorShape => [(1, .message dimension)]
  | dimension => [(1, .varint), (2, .string), (3, .string)]
  | operatorSet => [(1, .string), (2, .varint)]
  | stringPair => [(1, .string), (2, .string)]
  | segment => [(1, .varint), (2, .varint)]
  | sparseTensor => [(1, .message tensor), (2, .message tensor), (3, .varint)]
  | tensorAnnotation => [(1, .string), (2, .message stringPair)]
  | trainingInfo =>
    [(1, .message graph), (2, .message graph), (3, .message stringPair), (4, .message stringPair)]
  | function =>
    [(1, .string), (4, .string), (5, .string), (6, .string), (7, .message node), (8, .string),
      (9, .message operatorSet), (10, .string)]

/-- Fields that hold any number of numbers, which may come packed into one payload. -/
def packable : Message → List Nat
  | attr => [7, 8]
  | tensor => [1, 4, 5, 7, 10, 11]
  | sparseTensor => [3]
  | _ => []

end Message

/-! ## Reading -/

/-- What a field holds: a number as its bits. -/
inductive Value
  | number (n : Nat)
  | bytes (bs : List UInt8)
  | message (fields : List (Nat × Value))

/-- The fields of a message, in the order in which they come. -/
abbrev Record := List (Nat × Value)

/-- The numbers packed into a payload: numbers of varying length, one after the other. -/
def unpackVarints (bs : List UInt8) : Option (List Nat) :=
  if bs.isEmpty then some []
  else
    match h : readVarint bs with
    | none => none
    | some (n, rest) =>
      have := length_of_readVarintFrom h
      (unpackVarints rest).map (n :: ·)
termination_by bs.length

/-- The numbers of a width packed into a payload. -/
def unpackFixed (width : Nat) (bs : List UInt8) : Option (List Nat) :=
  if bs.length % width = 0 then some (LittleEndian.split width bs) else none

/-- The values of a payload for a field of a type. -/
def valuesOf (type : FieldType) (packed : Bool) (readMessage : Message → List UInt8 → Option Record) :
    Payload → Option (List Value)
  | .varint n => if type = .varint then some [.number n] else none
  | .fixed32 n => if type = .float then some [.number n] else none
  | .fixed64 n => if type = .double then some [.number n] else none
  | .bytes bs =>
    match type with
    | .string => (Text.readUtf8? bs).map fun _ => [.bytes bs]
    | .bytes => some [.bytes bs]
    | .message m => (readMessage m bs).map fun r => [.message r]
    | .varint => if packed then (unpackVarints bs).map fun ns => ns.map .number else none
    | .float => if packed then (unpackFixed 4 bs).map fun ns => ns.map .number else none
    | .double => if packed then (unpackFixed 8 bs).map fun ns => ns.map .number else none

/-- The values of a token of a message that `depth` more levels may be nested in. -/
def fieldsOf (m : Message) (depth : Nat) (readMessage : Message → List UInt8 → Option Record)
    (t : Token) : Option Record :=
  match m.fields.lookup t.field, t.payload with
  | none, _ => if depth = 0 then none else some []
  | some _, none => none
  | some type, some p =>
    (valuesOf type (m.packable.contains t.field) readMessage p).map fun vs =>
      vs.map fun v => (t.field, v)

/-- Reads a message that `depth` more levels may be nested in. -/
def readMessage (m : Message) : Nat → List UInt8 → Option Record
  | 0, bs => do
    let ts ← tokens 0 [] bs
    let rs ← ts.mapM (fieldsOf m 0 fun _ _ => none)
    some rs.flatten
  | depth + 1, bs => do
    let ts ← tokens (depth + 1) [] bs
    let rs ← ts.mapM (fieldsOf m (depth + 1) fun m bs => readMessage m depth bs)
    some rs.flatten

/-- How many levels may be nested in a whole model. -/
def depthLimit : Nat :=
  100

/-! ## Fields of a record -/

namespace Record

/-- All values of a field. -/
def values (r : Record) (field : Nat) : List Value :=
  (r.filter fun f => f.1 == field).map fun f => f.2

def numbers (r : Record) (field : Nat) : List Nat :=
  (r.values field).filterMap fun
    | .number n => some n
    | _ => none

/-- The last of the numbers of a field; zero if there is none. -/
def number (r : Record) (field : Nat) : Nat :=
  (r.numbers field).getLast?.getD 0

def byteStrings (r : Record) (field : Nat) : List (List UInt8) :=
  (r.values field).filterMap fun
    | .bytes bs => some bs
    | _ => none

/-- The last of the byte strings of a field; empty if there is none. -/
def bytes (r : Record) (field : Nat) : List UInt8 :=
  (r.byteStrings field).getLast?.getD []

def texts (r : Record) (field : Nat) : List String :=
  (r.byteStrings field).map fun bs => String.ofList (Text.readUtf8 bs)

/-- The last of the texts of a field; empty if there is none. -/
def text (r : Record) (field : Nat) : String :=
  String.ofList (Text.readUtf8 (r.bytes field))

def messages (r : Record) (field : Nat) : List Record :=
  (r.values field).filterMap fun
    | .message fields => some fields
    | _ => none

/-- The one message that all messages of a field make together, if there is any. -/
def message? (r : Record) (field : Nat) : Option Record :=
  match r.messages field with
  | [] => none
  | rs => some rs.flatten

end Record

end NetPack.Wire
