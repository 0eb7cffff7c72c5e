import NetPack.Diagnostic
import NetPack.Failure
import NetPack.Network.Basic

/-!
# Events

What happens while a network is packed, in order: the findings, and the steps that a log shows.
-/

namespace NetPack

inductive Event
  | diagnostic (d : Diagnostic)
  | convertedOperator (name : String) (opType : OpType) (inputs outputs : List NodeId)
  | builtGraph (nodes inputs outputs diagnostics : Nat)
  | serializedGraph (bytes : Nat)
  | serializedModel (bytes diagnostics : Nat)
  | finished (output : String) (bytes warnings : Nat)
deriving DecidableEq, Inhabited

/-- The finding that an event is. -/
def Event.diagnostic? : Event → Option Diagnostic
  | diagnostic d => some d
  | _ => none

/-- The findings among events. -/
def diagnosticsOf (log : List Event) : List Diagnostic :=
  log.filterMap Event.diagnostic?

/-- A computation that logs events and may end in a failure. -/
abbrev Traced := Logged Failure Event

end NetPack
