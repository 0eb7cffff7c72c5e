import NetPack.Onnx.Constant

/-!
# Payloads processed into one log

A payload is anything that elements can come from. A list of payloads is processed one after the
other, whether or not the earlier ones failed, and their findings go into one log.
-/

namespace NetPack.Onnx

/-- A source of elements. -/
inductive Payload
  | tensor (t : Tensor)
  | operator (n : Node)
  | integers (name : String) (values : List Int64)

/-- What a payload becomes. -/
inductive Product
  | constant (c : Constant)
  | integers (values : List Int32)

def Payload.process : Payload → Reported Product
  | tensor t => do
    let c ← t.toConstant
    pure (.constant c)
  | operator n => do
    let c ← n.toConstant
    pure (.constant c)
  | integers name values => do
    let cs ← narrow name values
    pure (.integers cs)

/-- The log behind an earlier one after all payloads, and their outcomes, each with the part of the
log that is its own. -/
def processAll (log : List Diagnostic) :
    List Payload → List Diagnostic × List (Except Failure Product × List Diagnostic)
  | [] => (log, [])
  | p :: ps =>
    let outcome := p.process
    let (final, rest) := processAll (log ++ outcome.log) ps
    (final, (outcome.result, outcome.log) :: rest)

end NetPack.Onnx
