import NetPack.Log.Directive

/-!
# Log filters

The user's setting is a list of directives, separated by commas. A directive that is not understood is
reported and left out. The most specific directive about an event decides whether the event is shown,
and an event that no directive is about is not shown. Without any directive everything is shown up to
the default level.
-/

namespace NetPack

/-- Which events are shown, and what was left out of the setting. -/
structure LogFilter where
  directives : List Directive
  ignored : List (String × DirectiveFault) := []
deriving DecidableEq

namespace LogFilter

/-- The directives of a setting as they are written. Nothing between two commas is no directive. -/
def pieces (setting : String) : List String :=
  (setting.splitOn ",").filter (· ≠ "")

/-- A filter and a further directive. -/
def extend (f : LogFilter) (piece : String) : LogFilter :=
  match Directive.read piece.toList with
  | .ok d => { f with directives := f.directives ++ [d] }
  | .error fault => { f with ignored := f.ignored ++ [(piece, fault)] }

/-- The filter of directives as they are written. -/
def ofPieces (pieces : List String) : LogFilter :=
  let f := pieces.foldl extend { directives := [] }
  if f.directives.isEmpty then { f with directives := [{ verbosity := .default }] } else f

/-- The filter that a setting asks for. -/
def ofSetting (setting : Option String) : LogFilter :=
  ofPieces (pieces (setting.getD ""))

/-- The verbosity of the directive that decides about an event. -/
def verbosity (f : LogFilter) (e : Event) : Verbosity :=
  ((Directive.decidingFor? f.directives e).map Directive.verbosity).getD .off

def shows (f : LogFilter) (e : Event) : Bool :=
  e.level.rank ≤ f.verbosity e

/-- The lines that report what was left out of the setting. -/
def report (f : LogFilter) : String :=
  String.join (f.ignored.map fun i => "ignoring `" ++ i.1 ++ "`: " ++ i.2.message ++ "\n")

/-- The lines of a log that are shown. -/
def text (f : LogFilter) (log : List Event) : String :=
  String.join ((log.filter f.shows).map Event.line)

/-- The last of two equal directives counts. -/
example : ¬ (ofPieces ["off", "debug", "off"]).shows (.serializedGraph 0) := by
  decide +kernel

/-- A longer topic counts more than a shorter one, in whichever order. -/
example : (ofPieces ["onnx_convert::serialize=debug", "off"]).shows (.serializedGraph 0) := by
  decide +kernel

/-- A setting that only has directives on other topics shows nothing. -/
example : ¬ (ofPieces ["x"]).shows (.serializedModel 0 0) := by
  decide +kernel

/-- A setting in which nothing is understood shows what is shown without one. -/
example : (ofPieces ["!"]).shows (.serializedModel 0 0) := by
  decide +kernel

end LogFilter

end NetPack
