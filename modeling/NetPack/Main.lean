import NetPack.Command

/-!
# The program

Reads the arguments and the files, and prints what the command says.
-/

namespace NetPack.Main

/-- The content of a file, if it can be read. -/
def readFile? (path : String) : IO (Option (List UInt8)) :=
  try
    let content ← IO.FS.readBinFile path
    pure (some content.toList)
  catch _ => pure none

/-- Whether a file could be written. -/
def writeFile (path : String) (content : List UInt8) : IO Bool :=
  try
    IO.FS.writeBinFile path ⟨content.toArray⟩
    pure true
  catch _ => pure false

/-- Prints the outcome of a command; its report ends its line. -/
def present (o : Command.Outcome) : IO UInt32 := do
  IO.print o.stdout
  IO.eprint o.stderr
  unless o.stderr.isEmpty || o.stderr.endsWith "\n" do
    IO.eprintln ""
  pure o.exit

/-- Converts a file. -/
def convert (f : LogFilter) (paths : Command.Paths) : IO UInt32 := do
  let x := convertContent paths.input (← readFile? paths.input)
  match x.result with
  | .error _ => present (Command.conversionOutcome f paths.output x)
  | .ok packed => do
    let written ← writeFile paths.output packed.bytes
    let y := if written then x else ⟨x.log, .error (.writing paths.output)⟩
    present (Command.conversionOutcome f paths.output y)

end NetPack.Main

def main (args : List String) : IO UInt32 := do
  let f := NetPack.LogFilter.ofSetting (← IO.getEnv "RUST_LOG")
  IO.eprint f.report
  match NetPack.Command.Paths.ofArguments args with
  | .error outcome => NetPack.Main.present outcome
  | .ok paths => NetPack.Main.convert f paths
