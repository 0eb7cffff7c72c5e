import Mathlib.Data.List.Infix
import NetPack.Proofs.Rule.Reached
import NetPack.Reading.Session

/-!
# What a session remembers

A session remembers nothing but the names that were asked for and the findings, and no reading looks at them. So
each call answers what it answers on a new session. After any sequence of calls, failed ones among them, the
attributes that are left are those whose name no call has asked for (`Call.AsksFor`), and the findings are those of
the calls on a new session, in order (`Session.run_start`). A call that is a sequence of readings, such as a rule,
makes each of them on the session that the readings before it have left (`Session.read_run`, `Session.read_bind`).
-/

namespace NetPack

/-! ## Names of single readings -/

namespace Reading

variable (n : Onnx.Node) (constants : ConstantTable)

theorem names_optional (k : Kind) (name : String) : (optional n k name).names = [name] :=
  rfl

theorem names_withDefault (k : Kind) (name : String) (default : k.Value) :
    (withDefault n k name default).names = [name] :=
  (names_bind fun _ => rfl).trans (names_optional n k name)

theorem names_requiredOrInput (k : Kind) (name : String) (index : Nat) :
    (requiredOrInput n constants k name index).names = [name] := by
  refine (names_bind fun v => ?_).trans (names_optional n k name)
  cases v with
  | none => rfl
  | some v => rfl

theorem names_expect (p : PlainKind) (name : String) (supported : p.kind.Value) :
    (expect n p name supported).names = [name] := by
  refine (names_bind fun v => ?_).trans (names_withDefault n p.kind name supported)
  split
  · rfl
  · rfl

theorem mem_names_bind {α β : Type} {x : Reading α} {f : α → Reading β} {a name : String}
    (hx : x.names = [a]) (hf : ∀ v, (f v).names = []) : name ∈ (x >>= f).names ↔ name = a := by
  rw [names_bind hf, hx, List.mem_singleton]

end Reading

/-! ## Names of calls -/

namespace Call

open Reading

variable (n : Onnx.Node) (constants : ConstantTable)

/-- The names that a call asks for on an operator. A rule asks for those of its conditions as long as all conditions
before them are met. -/
def AsksFor : Call → String → Prop
  | withDefault _ name _, asked | optional _ name, asked | required _ name, asked
  | requiredOrInput _ name _, asked | expect _ name _, asked | ignore name, asked => asked = name
  | narrow _ _, _ | constant _, _ => False
  | rule t, asked => ∃ before c after, t.conditions n constants = before ++ c :: after ∧ c.name = asked ∧
      ∀ b ∈ before, b.Met n

theorem mem_names_run (c : Call) (name : String) :
    name ∈ (c.run n constants).names ↔ c.AsksFor n constants name := by
  cases c with
  | withDefault k a default => exact mem_names_bind (names_withDefault n k a default) fun _ => rfl
  | optional k a =>
    refine mem_names_bind (names_optional n k a) fun v => ?_
    cases v with
    | none => rfl
    | some v => rfl
  | required k a => exact mem_names_bind (names_required n k a) fun _ => rfl
  | requiredOrInput k a index => exact mem_names_bind (names_requiredOrInput n constants k a index) fun _ => rfl
  | expect p a supported => exact mem_names_bind (names_expect n p a supported) fun _ => rfl
  | ignore a => exact mem_names_bind (x := Reading.ignore a) rfl fun _ => rfl
  | narrow a values =>
    have hnames : (run n constants (narrow a values)).names = [] :=
      (names_bind fun _ => rfl).trans (names_reported (NetPack.narrow a values))
    rw [hnames]
    exact iff_of_false List.not_mem_nil id
  | constant tensor =>
    have hnames : (run n constants (constant tensor)).names = [] :=
      (names_bind fun _ => rfl).trans (names_reported tensor.toConstant)
    rw [hnames]
    exact iff_of_false List.not_mem_nil id
  | rule t =>
    have hnames : (run n constants (rule t)).names = (t.rule n constants).names := names_bind fun _ => rfl
    rw [hnames]
    exact (t.reached_rule n constants).mem_iff name

end Call

/-! ## Sessions -/

namespace Session

variable {α β : Type} (s : Session)

/-- A reading on a session, with the session after it. -/
def read (x : Reading α) : Except Failure α × Session :=
  (x.result, { s with notes := s.notes ++ x.log })

/-- The second of two readings is made on the session that the first one leaves, unless that one has failed. -/
theorem read_bind (x : Reading α) (f : α → Reading β) :
    s.read (x >>= f) = match s.read x with
      | (.ok a, s') => s'.read (f a)
      | (.error e, s') => (.error e, s') := by
  unfold read
  cases hresult : x.result with
  | error e => rw [Logged.bind_of_error f hresult]
  | ok a =>
    rw [Logged.bind_of_ok f hresult]
    dsimp only
    rw [List.append_assoc]

/-- A call is a reading on the session. -/
theorem read_run (c : Call) : s.read (c.run s.node s.constants) = (s.answer c, s.step c) :=
  rfl

/-- The session after a sequence of calls. -/
def after (s : Session) (calls : List Call) : Session :=
  calls.foldl step s

theorem after_cons (c : Call) (calls : List Call) : s.after (c :: calls) = (s.step c).after calls :=
  rfl

/-- The notes of the calls are put behind those of the session, and nothing else changes. -/
theorem after_eq (calls : List Call) : s.after calls
    = { s with notes := s.notes ++ calls.flatMap fun c => (c.run s.node s.constants).log } := by
  induction calls generalizing s with
  | nil => simp [after]
  | cons c calls ih =>
    rw [after_cons, ih (s.step c), List.flatMap_cons, ← List.append_assoc]
    rfl

theorem answers_run (calls : List Call) : (s.run calls).map Prod.fst = calls.map s.answer := by
  induction calls generalizing s with
  | nil => rfl
  | cons c calls ih =>
    have hanswer : (s.step c).answer = s.answer := funext (answer_step s c)
    rw [run, List.map_cons, ih, hanswer, List.map_cons]

/-- A run goes through the sessions after the first calls, one more each time. -/
theorem sessions_run (calls : List Call) : s :: (s.run calls).map Prod.snd = calls.inits.map s.after := by
  induction calls generalizing s with
  | nil => rfl
  | cons c calls ih =>
    rw [run, List.map_cons, ih, List.inits_cons, List.map_cons, List.map_map]
    rfl

theorem diagnostics_after (calls : List Call) : (s.after calls).diagnostics
    = s.diagnostics ++ calls.flatMap fun c => ((start s.node s.constants []).step c).diagnostics := by
  rw [after_eq]
  unfold diagnostics
  rw [List.filterMap_append, List.filterMap_flatMap]
  rfl

theorem mem_names_after (n : Onnx.Node) (constants : ConstantTable) (earlier : List Diagnostic)
    (calls : List Call) (name : String) :
    name ∈ ((start n constants earlier).after calls).notes.filterMap Note.name? ↔
      ∃ c ∈ calls, c.AsksFor n constants name := by
  rw [after_eq, List.filterMap_append, List.filterMap_flatMap, start, filterMap_name?_found, List.nil_append,
    List.mem_flatMap]
  simp only [← Call.mem_names_run]
  rfl

open scoped Classical in
/-- In any run, each call answers what it answers on a new session; after any calls, failed ones among them, the
attributes that are left are those whose name none of the calls has asked for, in source order; and the findings
are the earlier ones and then those of each call on a new session. -/
theorem run_start (n : Onnx.Node) (constants : ConstantTable) (earlier : List Diagnostic) (calls : List Call) :
    let s := start n constants earlier
    let new := start n constants []
    (s.run calls).map Prod.fst = calls.map new.answer ∧
    s :: (s.run calls).map Prod.snd = calls.inits.map s.after ∧
    (s.after calls).unhandled
      = (n.attributes.map (·.name)).filter (fun name => ∀ c ∈ calls, ¬c.AsksFor n constants name) ∧
    (s.after calls).diagnostics = earlier ++ calls.flatMap fun c => (new.step c).diagnostics := by
  intro s new
  have hnode : (s.after calls).node = n := congrArg node (s.after_eq calls)
  refine ⟨answers_run s calls, sessions_run s calls, ?_, ?_⟩
  · unfold unhandled Onnx.Node.unhandled
    rw [hnode]
    refine List.filter_congr fun name _ => ?_
    have hnames := mem_names_after n constants earlier calls name
    rw [Bool.eq_iff_iff]
    simp [s, hnames]
  · rw [diagnostics_after]
    exact congrArg (· ++ _) (filterMap_diagnostic?_found earlier)

/-- A rule that fails has asked for the mistyped padding mode, but not for the amounts, which come after it. -/
example :
    let n : Onnx.Node := { attributes := [{ name := "note" }, { name := "pads" }, { name := "auto_pad" },
      { name := "axis" }, { name := "note" }, { name := "axis" }] }
    ((start n (fun _ => none) []).after [.rule .conv, .required .int "axis"]).unhandled
      = ["note", "pads", "note"] := by
  decide

end Session

end NetPack
