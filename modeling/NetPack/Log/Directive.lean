import NetPack.Log.Line
import NetPack.Pattern.Check
import NetPack.Text.Number

/-!
# Directives

A directive says how much is shown of the events that it applies to. It is written

    topic[span{field}]=level

where each part can be left out, or is a level alone. A directive without a level asks for everything.
Events stand in no span and their fields are known by key only, so a directive that names a span or the
value of a field applies to none of them.
-/

namespace NetPack

/-- A field that a directive asks for. -/
structure FieldCondition where
  key : String
  value : Option String
deriving DecidableEq

structure Directive where
  /-- What the topic of an event begins with. -/
  topic : Option String := none
  span : Option String := none
  field : Option FieldCondition := none
  verbosity : Verbosity
deriving DecidableEq

/-- What can be wrong with a directive. -/
inductive DirectiveFault
  | malformed
  | unknownLevel
  /-- The value of a field is no number and no regular expression that can be used. -/
  | value (f : Pattern.Fault)
deriving DecidableEq

def DirectiveFault.message : DirectiveFault → String
  | malformed => "invalid filter directive"
  | unknownLevel => "error parsing level filter: expected one of \"off\", \"error\", \"warn\", "
    ++ "\"info\", \"debug\", \"trace\", or a number 0-5"
  | value f => "invalid field filter: " ++ f.message

/-! ## Words

A directive is read without the blanks in front of it, but its words are cut out of the whole text, at the
places that they have in what is read. So behind blanks a word is not the one that was read, and a level
that is asked for there is never understood.
-/

/-- A text without so many bytes at its beginning. -/
def dropBytes : Nat → List Char → List Char
  | _, [] => []
  | n, c :: r => if n = 0 then c :: r else dropBytes (n - c.utf8Size) r

/-- The characters in so many bytes at the beginning of a text. -/
def takeBytes : Nat → List Char → List Char
  | _, [] => []
  | n, c :: r => if n < c.utf8Size then [] else c :: takeBytes (n - c.utf8Size) r

/-- How many bytes a text takes. -/
def byteCount : List Char → Nat
  | [] => 0
  | c :: r => c.utf8Size + byteCount r

/-- A text that is read, and the whole text that words are cut from. -/
structure DirectiveText where
  whole : List Char
  body : List Char

namespace DirectiveText

def ofList (s : List Char) : DirectiveText :=
  ⟨s, s.dropWhile Text.isBlank⟩

/-- What the whole text has from the place on where a rest of the body begins. -/
def behind (t : DirectiveText) (rest : List Char) : List Char :=
  dropBytes (byteCount t.body - byteCount rest) t.whole

/-- The word in the place of a word of the body with which a rest of the body begins. -/
def cut (t : DirectiveText) (rest word : List Char) : List Char :=
  takeBytes (byteCount word) (t.behind rest)

end DirectiveText

/-! ## Reading -/

namespace FieldCondition

/-- A key, or a key and a value behind an equals sign. The value ends at a second equals sign. -/
def read (s : List Char) : Except DirectiveFault FieldCondition :=
  let key := s.takeWhile (· ≠ '=')
  match s.drop key.length with
  | [] => .ok ⟨String.ofList key, none⟩
  | _ :: r =>
    let value := r.takeWhile (· ≠ '=')
    let condition : FieldCondition := ⟨String.ofList key, some (String.ofList value)⟩
    if Text.isNumber value then .ok condition
    else match Pattern.fault? value with
      | none => .ok condition
      | some f => .error (.value f)

end FieldCondition

namespace Directive

/-- Whether a directive can begin with a character, if not with `[`. -/
def isInitial (c : Char) : Bool :=
  Text.isAlphanumeric c || c = '-' || c = ':' || c = '_'

/-- The verbosity behind an equals sign. -/
def readVerbosity (s : List Char) : Except DirectiveFault Verbosity :=
  if s.isEmpty then .ok .everything
  else match Verbosity.ofWord? s with
    | some v => .ok v
    | none => .error .unknownLevel

/-- The rest of a directive behind `]`. -/
def readEnd (t : DirectiveText) : List Char → Except DirectiveFault Verbosity
  | '=' :: level => readVerbosity (t.behind level)
  | s => if s.all Text.isBlank then .ok .everything else .error .malformed

/-- The rest of a directive behind `[`. A field is read before what follows it. -/
def readSpan (t : DirectiveText) (topic : Option String) (s : List Char) :
    Except DirectiveFault Directive :=
  let word := s.takeWhile fun c => c ≠ ']' && c ≠ '\x7b'
  let name := String.ofList (t.cut s word)
  match s.drop word.length with
  | ']' :: r => do
    let verbosity ← readEnd t r
    pure { topic, span := some name, verbosity }
  | '\x7b' :: r =>
    let key := r.takeWhile (· ≠ '\x7d')
    match r.drop key.length with
    | '\x7d' :: r' =>
      if key.isEmpty then .error .malformed
      else do
        let field ← FieldCondition.read (t.cut r key)
        match r' with
        | ']' :: r' => do
          let verbosity ← readEnd t r'
          pure { topic, span := if word.isEmpty then none else some name, field := some field, verbosity }
        | _ => .error .malformed
    | _ => .error .malformed
  | _ => .error .malformed

/-- A word alone is a level, or else a topic. -/
def ofWord (s : List Char) : Directive :=
  match Verbosity.ofWord? s with
  | some verbosity => { verbosity }
  | none => { topic := some (String.ofList s), verbosity := .everything }

/-- Reads a directive. -/
def read (s : List Char) : Except DirectiveFault Directive :=
  let t := DirectiveText.ofList s
  match t.body with
  | [] => .error .malformed
  | '[' :: r => readSpan t none r
  | c :: r =>
    if isInitial c then
      let word := c :: r.takeWhile fun c => c ≠ '=' && c ≠ '['
      let topic := some (String.ofList (t.cut t.body word))
      match t.body.drop word.length with
      | [] => .ok (ofWord s)
      | '=' :: level => do
        let verbosity ← readVerbosity (t.behind level)
        pure { topic, verbosity }
      | _ :: r => readSpan t topic r
    else .error .malformed

example : (read "info".toList).toOption = some { verbosity := Level.info.rank } := by
  decide +kernel

example : (read "onnx=04".toList).toOption =
    some { topic := some "onnx", verbosity := Level.debug.rank } := by
  decide +kernel

example : (read "x[s\x7bk=1\x7d]".toList).toOption =
    some { topic := some "x", span := some "s", field := some ⟨"k", some "1"⟩,
           verbosity := .everything } := by
  decide +kernel

example : (read "a=b".toList matches .error .unknownLevel) ∧
    (read "+3".toList matches .error .malformed) ∧
    (read "[\x7bk=(\x7d]".toList matches .error (.value .malformed)) := by
  decide +kernel

/-! ## Application -/

/-- Whether an event is one of those that a directive is about. -/
def appliesTo (d : Directive) (e : Event) : Bool :=
  (d.topic.all fun t => t.toList.isPrefixOf e.topic.toList) && d.span.isNone &&
    (d.field.all fun f => f.value.isNone && e.keys.contains f.key)

/-- Whether a directive is less specific than another one that applies to the same event: its topic is
shorter, or else it asks for no field, or for one that comes earlier in the alphabet. -/
def isBroaderThan (d d' : Directive) : Bool :=
  let size (t : Option String) : Nat := (t.map fun t => t.length + 1).getD 0
  let key (f : Option FieldCondition) : String := (f.map FieldCondition.key).getD ""
  size d.topic < size d'.topic ||
    (size d.topic = size d'.topic && (d.field.isNone && d'.field.isSome ||
      d.field.isSome = d'.field.isSome && key d.field < key d'.field))

/-- The most specific directive about an event; of two that are alike the last one. -/
def decidingFor? (ds : List Directive) (e : Event) : Option Directive :=
  (ds.filter fun d => d.appliesTo e).foldl
    (fun best d => match best with
      | some b => if d.isBroaderThan b then some b else some d
      | none => some d) none

end Directive

end NetPack
