import NetPack.Rule.Operators

/-!
# Sessions of readings

A session is a sequence of readings of one operator, whole rules among them. Nothing but its notes
grows: what a call answers does not depend on the calls before it (`answer_step`), and the notes are
those of the calls in order (`notes_step`).
-/

namespace NetPack

/-- A single reading. -/
inductive Call
  | withDefault (k : Kind) (name : String) (default : k.Value)
  | optional (k : Kind) (name : String)
  | required (k : Kind) (name : String)
  | requiredOrInput (k : Kind) (name : String) (index : Nat)
  | expect (p : PlainKind) (name : String) (supported : p.kind.Value)
  | ignore (name : String)
  | narrow (name : String) (values : List Int64)
  | constant (tensor : Onnx.Tensor)
  | rule (opType : OpType)

/-- What a reading gives. -/
inductive Answer
  | value (v : Onnx.Value)
  | absent
  | done
  | integers (values : List Int32)
  | constant (c : Constant)
  | attrs (a : Attrs)

/-- A reading of an operator among constants. -/
def Call.run (n : Onnx.Node) (constants : ConstantTable) : Call → Reading Answer
  | withDefault k name default => do
    let v ← Reading.withDefault n k name default
    pure (.value ⟨k, v⟩)
  | optional k name => do
    match ← Reading.optional n k name with
    | some v => pure (.value ⟨k, v⟩)
    | none => pure .absent
  | required k name => do
    let v ← Reading.required n k name
    pure (.value ⟨k, v⟩)
  | requiredOrInput k name index => do
    let v ← Reading.requiredOrInput n constants k name index
    pure (.value ⟨k, v⟩)
  | expect p name supported => do
    Reading.expect n p name supported
    pure .done
  | ignore name => do
    Reading.ignore name
    pure .done
  | narrow name values => do
    let cs ← Reading.reported (NetPack.narrow name values)
    pure (.integers cs)
  | constant tensor => do
    let c ← Reading.reported tensor.toConstant
    pure (.constant c)
  | rule opType => do
    let a ← opType.rule n constants
    pure (.attrs a)

/-- An operator that is being read, with the notes so far. -/
structure Session where
  node : Onnx.Node
  constants : ConstantTable
  notes : List Note

namespace Session

/-- A session that starts with earlier findings. -/
def start (n : Onnx.Node) (constants : ConstantTable) (earlier : List Diagnostic) : Session :=
  ⟨n, constants, earlier.map .found⟩

/-- The attribute names that no call has asked for. -/
def unhandled (s : Session) : List String :=
  s.node.unhandled s.notes

/-- The findings so far. -/
def diagnostics (s : Session) : List Diagnostic :=
  s.notes.filterMap Note.diagnostic?

/-- The session after one more call. -/
def step (s : Session) (c : Call) : Session :=
  { s with notes := s.notes ++ (c.run s.node s.constants).log }

/-- What a call answers. -/
def answer (s : Session) (c : Call) : Except Failure Answer :=
  (c.run s.node s.constants).result

/-- The answers to a sequence of calls, each with the session after it. -/
def run (s : Session) : List Call → List (Except Failure Answer × Session)
  | [] => []
  | c :: cs => (s.answer c, s.step c) :: (s.step c).run cs

theorem answer_step (s : Session) (c d : Call) : (s.step c).answer d = s.answer d := rfl

theorem notes_step (s : Session) (c : Call) :
    (s.step c).notes = s.notes ++ (c.run s.node s.constants).log := rfl

end Session

end NetPack
