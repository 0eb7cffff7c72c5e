import NetPack.Single.Decimal
import NetPack.Text.Quoted
import NetPack.Text.Utf8
import NetPack.Logged
import NetPack.Pattern.Check
import NetPack.Onnx.Basic
import NetPack.Network.Basic
import NetPack.Onnx.Constant
import NetPack.Reading.Session
import NetPack.Onnx.Payload
import NetPack.Build
import NetPack.Buffer.Writer
import NetPack.Buffer.Table
import NetPack.Schema.Enumeration
import NetPack.Schema.Encode
import NetPack.Schema.Content
import NetPack.Pack
import NetPack.Sample
import NetPack.Main
import NetPack.Proofs.Schema.Safety
import NetPack.Proofs.Build.References
import NetPack.Proofs.Build.Validity
import NetPack.Proofs.Build.Outcome
import NetPack.Proofs.Onnx.Constant
import NetPack.Proofs.Rule.Handled
import NetPack.Proofs.Build.Findings
import NetPack.Proofs.Build.Dataflow
import NetPack.Proofs.Build.Attributes
import NetPack.Proofs.Build.Reordering
import NetPack.Proofs.Rename.Basic
import NetPack.Proofs.Rename.Rule
import NetPack.Proofs.Rename.Build
import NetPack.Proofs.Schema.Foreign
import NetPack.Proofs.Schema.Represented
import NetPack.Proofs.Schema.Packing
import NetPack.Proofs.Onnx.RawData
import NetPack.Proofs.Build.WellTyped
import NetPack.Proofs.Onnx.ConstantForm
import NetPack.Proofs.Rule.Locality
import NetPack.Proofs.Rule.Keywords
import NetPack.Proofs.Reading.Session
import NetPack.Proofs.Build.Extension
import NetPack.Proofs.Build.Registration
import NetPack.Proofs.Network.ElementCount
import NetPack.Proofs.Onnx.Payload
import NetPack.Proofs.Build.Position
import NetPack.Proofs.Sample.Names
import NetPack.Proofs.Sample.Graph
import NetPack.Proofs.Sample.Network
