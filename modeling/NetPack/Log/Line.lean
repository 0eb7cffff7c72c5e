import NetPack.Event
import NetPack.Log.Level
import NetPack.Text.Quoted
import NetPack.Text.Shielded

/-!
# Log lines

Each event has a level, a topic and a line of text: the level, flush right, a message, and the fields that
belong to it. A message is shielded, so that it cannot steer the terminal that shows it.
-/

namespace NetPack

namespace Event

def level : Event → Level
  | diagnostic _ => .warn
  | convertedOperator _ _ _ _ => .debug
  | builtGraph _ _ _ _ => .info
  | serializedGraph _ => .debug
  | serializedModel _ _ => .info
  | finished _ _ _ => .info

/-- The part of the program that an event tells of, by which a user chooses what is shown. -/
def topic : Event → String
  | diagnostic _ => "onnx_convert::diagnostics"
  | convertedOperator _ _ _ _ => "onnx_convert::onnx::builder"
  | builtGraph _ _ _ _ => "onnx_convert::onnx::builder"
  | serializedGraph _ => "onnx_convert::serialize"
  | serializedModel _ _ => "onnx_convert"
  | finished _ _ _ => "convert_onnx"

/-- The positions of nodes as a log line shows them. -/
def positions (ids : List NodeId) : String :=
  Text.bracketed (ids.map fun i => toString i.toNat)

/-- The message of an event and what belongs to it, each under its key. -/
def parts : Event → String × List (String × String)
  | diagnostic d => (d.message, [])
  | convertedOperator name opType inputs outputs =>
    ("converted operator", [("op", name), ("op_type", Text.quote opType.name),
      ("inputs", positions inputs), ("outputs", positions outputs)])
  | builtGraph nodes inputs outputs diagnostics =>
    ("built graph", [("nodes", toString nodes), ("inputs", toString inputs),
      ("outputs", toString outputs), ("diagnostics", toString diagnostics)])
  | serializedGraph bytes => ("serialized graph", [("bytes", toString bytes)])
  | serializedModel bytes diagnostics =>
    ("serialized model", [("bytes", toString bytes), ("diagnostics", toString diagnostics)])
  | finished output bytes warnings =>
    ("conversion finished", [("output", output), ("bytes", toString bytes),
      ("warnings", toString warnings)])

/-- The keys of an event's fields. The message is a field too. -/
def keys (e : Event) : List String :=
  "message" :: e.parts.2.map Prod.fst

/-- The line of an event. -/
def line (e : Event) : String :=
  let (message, fields) := e.parts
  e.level.label ++ " " ++ Text.shield message
    ++ String.join (fields.map fun f => ", " ++ f.1 ++ ": " ++ f.2) ++ "\n"

end Event

end NetPack
