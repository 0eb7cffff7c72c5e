import NetPack.Pattern.Modes
import NetPack.Text.Alphanumeric

/-!
# Groups

What stands behind an opening parenthesis: flags for the rest of the group around it, or the beginning of
a new group, which can have flags or a name.
-/

namespace NetPack.Pattern

inductive Opening
  /-- New modes for the rest of the open group. -/
  | modes (m : Modes)
  /-- A new group. -/
  | group (m : Modes) (name : Option (List Char))

namespace Opening

/-- Whether a group can have a name. -/
def isName : List Char → Bool
  | [] => false
  | c :: r =>
    (c = '_' || Text.isAlphabetic c) &&
      r.all fun c => c = '_' || c = '.' || c = '[' || c = ']' || Text.isAlphanumeric c

/-- The name of a group, behind the question mark. -/
def readName : Reader (List Char) := do
  let _ ← Reader.nextIf 'P'
  Reader.expect '<'
  let name ← Reader.takeWhile (· ≠ '>')
  Reader.expect '>'
  Reader.require (isName name)
  return name

/-- Flags, behind the question mark, with the character that ends them. -/
def readFlags (m : Modes) : Reader Opening := do
  let text ← Reader.takeWhile fun c => c ≠ ':' && c ≠ ')'
  let last ← Reader.next
  match m.change? text with
  | none => Reader.fail
  | some m =>
    if last = ':' then return .group m none
    else do
      Reader.require !text.isEmpty
      return .modes m

/-- Reads what is behind a parenthesis. -/
def read (m : Modes) : Reader Opening := do
  m.skip
  if ← Reader.nextIf '?' then
    match ← Reader.optional readName with
    | some name => return .group m (some name)
    | none => readFlags m
  else return .group m none

end Opening

end NetPack.Pattern
