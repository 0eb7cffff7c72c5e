import NetPack.Text.Utf8

/-!
# A folder of files

The working directory of a conversion: files and nothing else, so a path is usable only if it leads to a
file name in this folder. Writing a file changes what is read under its own name only.
-/

namespace NetPack

/-- Files by name. -/
structure Folder where
  files : List (String × List UInt8)
deriving DecidableEq

namespace Folder

/-- The longest file name, in bytes. -/
def nameLimit : Nat :=
  255

/-- The longest path, in bytes. -/
def pathLimit : Nat :=
  4095

/-- The file name that a path leads to. Steps that stay in the folder are skipped; a path that leads out
of it or through a file, or ends in a step that is no name, leads nowhere. -/
def nameOf? (path : String) : Option String :=
  let steps := path.splitOn "/"
  let last := steps.getLast?.getD ""
  if path.startsWith "/" ∨ path.contains '\x00' ∨ last = "" ∨ last = "." then none
  else if pathLimit < (Text.utf8 path.toList).length then none
  else
    match steps.filter fun s => s ≠ "" ∧ s ≠ "." with
    | [name] => if name ≠ ".." ∧ (Text.utf8 name.toList).length ≤ nameLimit then some name else none
    | _ => none

/-- The content of the file at a path. -/
def read? (d : Folder) (path : String) : Option (List UInt8) := do
  let name ← nameOf? path
  d.files.lookup name

/-- The folder after a file is written at a path. -/
def write? (d : Folder) (path : String) (content : List UInt8) : Option Folder := do
  let name ← nameOf? path
  some ⟨(name, content) :: d.files.filter fun f => f.1 ≠ name⟩

end Folder

end NetPack
