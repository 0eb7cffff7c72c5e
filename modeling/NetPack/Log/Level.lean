/-!
# Levels

How important an event is, and how much of a log is shown. A verbosity is asked for by the name of a
level or by a number.
-/

namespace NetPack

/-- How important an event is, the most important first. -/
inductive Level
  | error | warn | info | debug | trace
deriving DecidableEq, Inhabited, Repr

namespace Level

def all : List Level :=
  [error, warn, info, debug, trace]

def name : Level → String
  | error => "error"
  | warn => "warn"
  | info => "info"
  | debug => "debug"
  | trace => "trace"

/-- The place of a level, counted from one. -/
def rank (l : Level) : Nat :=
  all.idxOf l + 1

/-- The level as a log line shows it. -/
def label : Level → String
  | error => "ERROR"
  | warn => " WARN"
  | info => " INFO"
  | debug => "DEBUG"
  | trace => "TRACE"

end Level

/-- The rank of the least important events that are shown. -/
abbrev Verbosity := Nat

namespace Verbosity

def off : Verbosity :=
  0

/-- What is shown if the user does not choose. -/
def default : Verbosity :=
  Level.info.rank

def everything : Verbosity :=
  Level.trace.rank

/-- The rank that decimal digits give, if there is a level of that rank. Zeros in front do not matter, nor
does a plus sign. -/
def ofDigits? (s : List Char) : Option Verbosity :=
  let digits := match s with
    | '+' :: r => r
    | _ => s
  let rank := digits.foldl (fun n d => n * 10 + (d.toNat - '0'.toNat)) 0
  if !digits.isEmpty && digits.all Char.isDigit && rank ≤ everything then some rank else none

/-- The verbosity that a word names, in upper or lower case. -/
def ofName? (s : List Char) : Option Verbosity :=
  let name := (String.ofList s).toLower
  if name = "off" then some off
  else (Level.all.find? fun l => l.name = name).map Level.rank

/-- The verbosity that a word asks for. -/
def ofWord? (s : List Char) : Option Verbosity :=
  (ofDigits? s).or (ofName? s)

end Verbosity

end NetPack
