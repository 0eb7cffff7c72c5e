import NetPack.Convert
import NetPack.Log.Filter

/-!
# The command

The command takes two paths, that of a model and that of the file to write. Its arguments are read from
left to right, and the first one that settles what to do, or that is wrong, decides.
-/

namespace NetPack.Command

/-- What the command prints and how it ends. -/
structure Outcome where
  exit : UInt32
  stdout : String := ""
  stderr : String := ""
deriving DecidableEq

namespace Outcome

def version : Outcome :=
  { exit := 0, stdout := "onnx-convert 0.1.0\n" }

def usageText : String :=
  "Usage: convert-onnx <MODEL> <OUT_NAME>\n"

def help : Outcome :=
  { exit := 0, stdout := "Convert an ONNX model into the binary model format\n\n" ++ usageText }

def wrongUsage : Outcome :=
  { exit := 2, stderr := usageText }

/-- The outcome with lines in front of its report. -/
def after (lines : String) (o : Outcome) : Outcome :=
  { o with stderr := lines ++ o.stderr }

end Outcome

/-- Where the model is read from and where it is written to. -/
structure Paths where
  input : String
  output : String
deriving DecidableEq

/-- The paths in the arguments behind those that are read so far, or the outcome if no conversion is
asked for. An argument that starts with a dash is a flag, unless it is a dash alone or `--` came
before it. -/
def readPaths (flags : Bool) : List String → List String → Except Outcome Paths
  | [input, output], [] => .ok ⟨input, output⟩
  | _, [] => .error .wrongUsage
  | paths, arg :: rest =>
    if flags ∧ arg = "--" then readPaths false paths rest
    else if flags ∧ arg.startsWith "-" ∧ arg ≠ "-" then
      if arg = "--version" then .error .version
      else if arg = "--help" then .error .help
      else if arg.startsWith "-V" then .error .version
      else if arg.startsWith "-h" then .error .help
      else .error .wrongUsage
    else if arg.isEmpty ∨ 2 ≤ paths.length then .error .wrongUsage
    else readPaths flags (paths ++ [arg]) rest

/-- The paths in the arguments, or the outcome if no conversion is asked for. -/
def Paths.ofArguments (args : List String) : Except Outcome Paths :=
  readPaths true [] args

/-- A text whose further lines are moved to the right by four places, as its first line is. -/
def indent (s : String) : String :=
  "    " ++ String.intercalate "\n    " (s.splitOn "\n")

/-- The report of a failure with its cause. Failures to read or write end with their context. -/
def failureText (f : FileFailure) : String :=
  "Error: " ++ f.context ++
    match f.cause? with
    | some cause => "\n\nCaused by:\n" ++ indent cause.message ++ "\n"
    | none => ""

/-- The outcome of a conversion. -/
def conversionOutcome (f : LogFilter) (output : String) (x : Logged FileFailure Event Packed) : Outcome :=
  match x.result with
  | .error failure => { exit := 1, stderr := f.text x.log ++ failureText failure }
  | .ok packed =>
    let finished := Event.finished output packed.bytes.length packed.diagnostics.length
    { exit := 0, stderr := f.text (x.log ++ [finished]) }

/-- Runs the command in a folder. What is wrong with the setting of the log is reported first. -/
def run (args : List String) (setting : Option String) (d : Folder) : Outcome × Folder :=
  let f := LogFilter.ofSetting setting
  match Paths.ofArguments args with
  | .error outcome => (outcome.after f.report, d)
  | .ok paths =>
    let x := d.convert paths.input paths.output
    let after := match x.result with
      | .ok (_, d) => d
      | .error _ => d
    ((conversionOutcome f paths.output (Prod.fst <$> x)).after f.report, after)

end NetPack.Command
