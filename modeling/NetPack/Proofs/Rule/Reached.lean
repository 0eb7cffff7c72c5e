import NetPack.Proofs.Rule.Accepted

/-!
# What rules have asked for

A rule asks for the names of its conditions in their order, and for none after the first condition that is not met
(`OpType.reached_rule`). If it gives a result, all of them are met, and its log is known from the operator alone,
without the constants (`OpType.log_rule`).
-/

namespace NetPack

/-! ## Notes -/

theorem filterMap_name?_lookedAt (names : List String) :
    (names.map Note.lookedAt).filterMap Note.name? = names := by
  rw [List.filterMap_map]
  exact List.filterMap_some

theorem filterMap_name?_found (ds : List Diagnostic) : (ds.map Note.found).filterMap Note.name? = [] := by
  rw [List.filterMap_map]
  exact List.filterMap_eq_nil_iff.mpr fun _ _ => rfl

theorem filterMap_diagnostic?_found (ds : List Diagnostic) :
    (ds.map Note.found).filterMap Note.diagnostic? = ds := by
  rw [List.filterMap_map]
  exact List.filterMap_some

theorem filterMap_name?_notes (names : List String) (ds : List Diagnostic) :
    (names.map Note.lookedAt ++ ds.map Note.found).filterMap Note.name? = names := by
  rw [List.filterMap_append, filterMap_name?_lookedAt, filterMap_name?_found, List.append_nil]

theorem filterMap_diagnostic?_notes (names : List String) (ds : List Diagnostic) :
    (names.map Note.lookedAt ++ ds.map Note.found).filterMap Note.diagnostic? = ds := by
  have hlooked : (names.map Note.lookedAt).filterMap Note.diagnostic? = [] := by
    rw [List.filterMap_map]
    exact List.filterMap_eq_nil_iff.mpr fun _ _ => rfl
  rw [List.filterMap_append, hlooked, List.nil_append, filterMap_diagnostic?_found]

/-! ## Names -/

namespace Reading

variable {α β : Type}

/-- The names that a reading has asked for, whether or not it has failed. -/
def names (x : Reading α) : List String :=
  x.log.filterMap Note.name?

theorem names_reported (x : Reported α) : (reported x).names = [] :=
  filterMap_name?_found x.log

/-- What follows a reading and asks for nothing does not change the names. -/
theorem names_bind {x : Reading α} {f : α → Reading β} (hf : ∀ a, (f a).names = []) :
    (x >>= f).names = x.names := by
  unfold names at hf ⊢
  cases h : x.result with
  | error e => rw [Logged.log_bind_of_error f h]
  | ok a => rw [Logged.log_bind_of_ok f h, List.filterMap_append, hf a, List.append_nil]

theorem names_required (n : Onnx.Node) (k : Kind) (name : String) : (required n k name).names = [name] := by
  unfold names
  rw [log_required]
  rfl

end Reading

/-! ## Rules -/

theorem Rule.names_constantOfShape (n : Onnx.Node) (constants : ConstantTable) :
    (constantOfShape n constants).names = ["value"] := by
  unfold constantOfShape
  rw [Reading.names_bind, Reading.names_required]
  intro t
  rw [Reading.names_bind, Reading.names_reported]
  intro c
  exact Reading.names_bind fun s => rfl

/-- Whether or not a rule gives a result, it has asked for the names of its conditions up to the first one that is
not met. -/
theorem OpType.reached_rule (n : Onnx.Node) (constants : ConstantTable) (t : OpType) :
    Condition.Reached n (t.conditions n constants) (t.rule n constants).names := by
  by_cases ht : t = .constantOfShape
  · subst ht
    have hnames : (constantOfShape.rule n constants).names = ["value"] :=
      Rule.names_constantOfShape n constants
    rw [hnames]
    exact Condition.reached_singleton n _
  · obtain ⟨names, hreached, hlog⟩ := (t.follows_rule n constants ht).asks
    unfold Reading.names
    rw [hlog, filterMap_name?_lookedAt]
    exact hreached

/-- The log of a rule that gives a result: the names that it asks for, and the findings in the value of an
operator of type `ConstantOfShape`. -/
theorem OpType.log_rule {n : Onnx.Node} {constants : ConstantTable} {t : OpType} {a : Attrs}
    (h : (t.rule n constants).result = .ok a) : (t.rule n constants).log
      = (n.handled t).map .lookedAt ++ (n.valueClampings t).map .found := by
  by_cases ht : t = .constantOfShape
  · subst ht
    exact Rule.log_constantOfShape constants h
  · have hmet := ((t.accepts_rule n constants).sound a h).1
    obtain ⟨names, hreached, hlog⟩ := (t.follows_rule n constants ht).asks
    rw [hlog, hreached.eq_map hmet, t.names_conditions, Onnx.Node.valueClampings_of_ne ht]
    exact (List.append_nil _).symm

end NetPack
