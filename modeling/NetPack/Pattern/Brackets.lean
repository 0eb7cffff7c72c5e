import NetPack.Pattern.Item

/-!
# Brackets

A class of characters in brackets: characters and ranges, classes with a name, further brackets, and
operators that intersect or subtract. Of a class only its depth is kept: how many brackets, unions and
operators are nested in one another.
-/

namespace NetPack.Pattern

/-- The depth of parts side by side. One part alone adds nothing. -/
def joined : List Nat → Nat
  | [] => 0
  | [d] => d
  | ds => ds.foldl max 0 + 1

/-- What is read of an opened bracket. -/
structure Bracket where
  /-- The depths of the parts behind the last operator, the last part first. -/
  parts : List Nat := []
  /-- The depth of what the last operator has to its left. -/
  left : Option Nat := none
  /-- Nothing but minus signs is read yet, which are characters here. -/
  fresh : Bool := true

namespace Bracket

def add (b : Bracket) (depth : Nat) : Bracket :=
  { b with parts := depth :: b.parts }

def depth (b : Bracket) : Nat :=
  match b.left with
  | none => joined b.parts
  | some d => max d (joined b.parts) + 1

/-- The bracket behind an operator. -/
def operate (b : Bracket) : Bracket :=
  { left := some b.depth, fresh := false }

/-- What stands behind an opening bracket. Among bytes no class is negated. -/
def readOpening (m : Modes) : Reader Bracket := do
  m.skip
  if ← Reader.nextIf '^' then
    Reader.require m.unicode
  return {}

/-- The classes that have a name between colons. -/
def classNames : List String :=
  ["alnum", "alpha", "ascii", "blank", "cntrl", "digit", "graph", "lower", "print", "punct", "space",
    "upper", "word", "xdigit"]

/-- A class with a name, behind its opening bracket, and whether it is negated. -/
def readNamed : Reader Bool := do
  Reader.expect ':'
  let negated ← Reader.nextIf '^'
  let name ← Reader.takeWhile (· ≠ ':')
  Reader.expect ':'
  Reader.expect ']'
  Reader.require (classNames.contains (String.ofList name))
  return negated

/-- Reads a character, a range or an item that begins with a character. A minus sign makes no range if it
ends the class or begins an operator. -/
def readRange (m : Modes) (c : Char) : Reader Unit := do
  let first ← Item.read m c
  m.skip
  let dash := (← Reader.peek) = some '-'
  let behind ← if dash then m.second else Reader.peek
  if dash && behind ≠ some ']' && behind ≠ some '-' then do
    let _ ← Reader.next
    m.skip
    let last ← Item.read m (← Reader.next)
    match first, last with
    | .char a _, .char b _ =>
      Reader.require (first.fitsBrackets m && last.fitsBrackets m && a ≤ b)
    | _, _ => Reader.fail
  else Reader.require (first.fitsBrackets m)

/-- Reads what begins with a character. The brackets around the open one come with it; the depth is given
when the last bracket is closed. -/
def step (m : Modes) (st : Bracket × List Bracket) (c : Char) :
    Reader ((Bracket × List Bracket) ⊕ Nat) := do
  let (b, outer) := st
  let settled := { b with fresh := false }
  let range : Reader ((Bracket × List Bracket) ⊕ Nat) := do
    readRange m c
    return .inl (settled.add 0, outer)
  if b.fresh && c = '-' then return .inl (b.add 0, outer)
  else if b.fresh && b.parts.isEmpty && c = ']' then return .inl (settled.add 0, outer)
  else if c = '[' then
    match ← Reader.optional readNamed with
    | some negated => do
      Reader.require (m.unicode || !negated)
      return .inl (settled.add 0, outer)
    | none => return .inl (← readOpening m, settled :: outer)
  else if c = ']' then
    match outer with
    | [] => return .inr (b.depth + 1)
    | o :: os => return .inl (o.add (b.depth + 1), os)
  else if c = '&' || c = '-' || c = '~' then
    if ← Reader.nextIf c then return .inl (settled.operate, outer) else range
  else range

/-- The depth of a class, behind its opening bracket. -/
def read (m : Modes) : Reader Nat := do
  let b ← readOpening m
  Reader.loop (fun _ => m.skip) (step m) (fun _ => none) (b, [])

end Bracket

end NetPack.Pattern
