import NetPack.Pattern.Brackets
import NetPack.Pattern.Group

/-!
# Regular expressions

A regular expression is checked and nothing more, because what it is compared with does not occur. It is
read from left to right; of its parts only those properties are kept on which it depends whether the whole
is well formed. The expression comes from a text without closing braces, so a repetition with a count in
braces is never complete. An expression of more than `nestLimit` parts inside one another is refused, and
so is one that asks for the borders of words in Unicode.
-/

namespace NetPack.Pattern

/-- Why a regular expression is refused. -/
inductive Fault
  | malformed
  | unicodeWordEdge
deriving DecidableEq

def Fault.message : Fault → String
  | malformed => "error building NFA"
  | unicodeWordEdge => "unsupported regex feature for DFAs: cannot build DFAs for regexes with Unicode "
    ++ "word boundaries; switch to ASCII word boundaries, or heuristically enable Unicode word "
    ++ "boundaries or use a different regex engine"

/-- A part of an expression. -/
structure Part where
  depth : Nat := 0
  repeatable : Bool := true

/-- An opened group, with all that stands before the group inside it. -/
structure Group where
  modes : Modes := {}
  /-- The depths of the alternatives before the last one. -/
  branches : List Nat := []
  /-- The parts of the last alternative, the last part first. -/
  parts : List Part := []

namespace Group

def add (g : Group) (p : Part) : Group :=
  { g with parts := p :: g.parts }

/-- The depth of the alternatives. -/
def depth (g : Group) : Nat :=
  joined (joined (g.parts.map Part.depth) :: g.branches)

/-- The group with a new alternative. -/
def branch (g : Group) : Group :=
  { g with branches := joined (g.parts.map Part.depth) :: g.branches, parts := [] }

/-- The group with its last part repeated. -/
def repeat? (g : Group) : Option Group :=
  match g.parts with
  | [] => none
  | p :: ps => if p.repeatable then some { g with parts := { depth := p.depth + 1 } :: ps } else none

end Group

/-- What is read of an expression. -/
structure Reading where
  group : Group := {}
  /-- The groups around the open one. -/
  outer : List Group := []
  names : List (List Char) := []
  /-- The borders of words in Unicode are asked for. -/
  unicodeWordEdge : Bool := false

namespace Reading

def add (st : Reading) (p : Part) : Reading :=
  { st with group := st.group.add p }

/-- Reads the part that begins with a character. -/
def step (st : Reading) (c : Char) : Reader (Reading ⊕ Reading) := do
  let m := st.group.modes
  match c with
  | '(' =>
    match ← Opening.read m with
    | .modes m =>
      let st := st.add { repeatable := false }
      return .inl { st with group := { st.group with modes := m } }
    | .group m name => do
      Reader.require !name.any st.names.contains
      return .inl { st with
        group := { modes := m }
        outer := st.group :: st.outer
        names := name.toList ++ st.names }
  | ')' =>
    match st.outer with
    | [] => Reader.fail
    | g :: gs => return .inl { st with group := g.add { depth := st.group.depth + 1 }, outer := gs }
  | '|' => return .inl { st with group := st.group.branch }
  | '[' => return .inl (st.add { depth := ← Bracket.read m })
  | '?' | '*' | '+' =>
    match st.group.repeat? with
    | none => Reader.fail
    | some g => do
      let _ ← Reader.nextIf '?'
      return .inl { st with group := g }
  | '{' => Reader.fail
  | '.' => do
    Reader.require m.unicode
    return .inl (st.add {})
  | c => do
    let item ← Item.read m c
    Reader.require (item.fits m)
    let st := st.add {}
    return .inl { st with unicodeWordEdge := st.unicodeWordEdge || m.unicode && item = .wordEdge }

/-- Reads an expression to its end, where every group is closed. -/
def read : Reader Reading :=
  Reader.loop (fun st => st.group.modes.skip) step (fun st => if st.outer.isEmpty then some st else none)
    {}

end Reading

/-- How many parts may be inside one another. -/
def nestLimit : Nat :=
  250

/-- Why an expression is refused, if it is. -/
def fault? (s : List Char) : Option Fault :=
  match Reading.read.run s with
  | none => some .malformed
  | some st =>
    if nestLimit < st.group.depth then some .malformed
    else if st.unicodeWordEdge then some .unicodeWordEdge
    else none

example : fault? "(?P<n>[^]a-f&&\\w]+?|\\x41)*".toList = none := by
  decide +kernel

example : fault? "(?P<a>x)(?P<a>y)".toList = some .malformed := by
  decide +kernel

/-- A repetition needs a part in front of it, and flags are none. -/
example : fault? "(?i)*".toList = some .malformed := by
  decide +kernel

/-- Among bytes no class is negated. -/
example : fault? "(?-u)[^a]".toList = some .malformed := by
  decide +kernel

example : fault? "\\b".toList = some .unicodeWordEdge ∧ fault? "(?-u)\\b".toList = none := by
  decide +kernel

end NetPack.Pattern
