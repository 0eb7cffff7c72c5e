import NetPack.Folder
import NetPack.Onnx.File
import NetPack.Pack

/-!
# Converting a file

A file is read, its model is packed, and the packed model is written to another file, which is not
touched unless the packing succeeds. A failure says in which of the three steps it arose.
-/

namespace NetPack

/-- Why a file is not converted. -/
inductive FileFailure
  | reading (input : String)
  | converting (input : String) (cause : Failure)
  | writing (output : String)
deriving DecidableEq

namespace FileFailure

/-- The step that failed. -/
def context : FileFailure → String
  | reading path => "reading ONNX model " ++ path
  | converting path _ => "converting ONNX model " ++ path
  | writing path => "writing converted model to " ++ path

def cause? : FileFailure → Option Failure
  | converting _ cause => some cause
  | _ => none

end FileFailure

/-- The packed form of a file, given its content if it can be read. -/
def convertContent (input : String) (content : Option (List UInt8)) :
    Logged FileFailure Event Packed := do
  let model ← .ofOption (.reading input) (content.bind Onnx.Model.ofBytes?)
  model.pack.mapError (.converting input)

/-- Converts a file of a folder. -/
def Folder.convert (d : Folder) (input output : String) : Logged FileFailure Event (Packed × Folder) := do
  let packed ← convertContent input (d.read? input)
  let d ← .ofOption (.writing output) (d.write? output packed.bytes)
  pure (packed, d)

end NetPack
