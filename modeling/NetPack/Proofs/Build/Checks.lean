import NetPack.Proofs.Build.Phases
import NetPack.Proofs.Build.Validity

/-!
# Checks

Each step of building looks for some violations in order (`Checks`): it fails with the first of them, and runs
if there are none. A sequence of steps looks for theirs in turn (`Checks.bind`). What the steps on a registry
look for depends on the names of its nodes alone (`Stage`).
-/

namespace NetPack

namespace Build

variable {α β : Type} {r r' : Registry}

/-! ## Checks -/

/-- A step looks for violations in order: it fails with the first of them, and runs if there are
none. -/
def Checks (x : Build α) (r : Registry) : List Failure → Prop
  | [] => ∃ a r', Runs x r a r'
  | e :: _ => (x r).result = .error e

theorem Checks.bind {x : Build α} {f : α → Build β} {es es' : List Failure} (hx : Checks x r es)
    (hf : ∀ a r', Runs x r a r' → Checks (f a) r' es') : Checks (x >>= f) r (es ++ es') := by
  cases es with
  | cons e es => exact congrArg Logged.result (bind_of_fails hx)
  | nil =>
    obtain ⟨a, r', ha⟩ := hx
    have hresult : ((x >>= f) r).result = (f a r').result := by rw [bind_of_runs ha]
    have htail := hf a r' ha
    cases es' with
    | cons e es' => exact hresult.trans htail
    | nil =>
      obtain ⟨b, r'', hb⟩ := htail
      exact ⟨b, r'', hresult.trans hb⟩

theorem checks_pure (a : α) : Checks (pure a) r [] :=
  ⟨a, r, runs_pure.mpr ⟨rfl, rfl⟩⟩

theorem Checks.after {x : Build α} {f : α → Build β} {es : List Failure} (hx : Checks x r [])
    (hf : ∀ a r', Runs x r a r' → Checks (f a) r' es) : Checks (x >>= f) r es :=
  hx.bind hf

/-- Steps that always run add no violation. -/
theorem Checks.followed {x : Build α} {f : α → Build β} {es : List Failure} (hx : Checks x r es)
    (hf : ∀ a r', Checks (f a) r' []) : Checks (x >>= f) r es :=
  List.append_nil es ▸ hx.bind fun a r' _ => hf a r'

theorem Checks.map {x : Build α} {es : List Failure} (hx : Checks x r es) (f : α → β) :
    Checks (do let a ← x; pure (f a)) r es :=
  hx.followed fun a _ => checks_pure (f a)

theorem checks_traced {x : Traced α} : Checks (traced x) r x.faults := by
  rw [Logged.faults]
  cases h : x.result with
  | ok a => exact ⟨a, r, runs_traced.mpr ⟨h, rfl⟩⟩
  | error e => exact congrArg Logged.result (Logged.bind_of_error (fun a => pure (a, r)) h)

theorem checks_reported {x : Reported α} : Checks (reported x) r x.faults :=
  checks_traced (x := x.mapLog .diagnostic)

/-! ## Stages -/

/-- The names of the nodes of a registry are those of a list. -/
structure Stage (r : Registry) (names : List String) : Prop where
  sound : r.Sound
  mem_iff : ∀ name, name ∈ r.nodes.toList.map Node.name ↔ name ∈ names

section Stage

variable {names : List String}

theorem Stage.empty : Stage .empty [] :=
  ⟨Registry.sound_empty, fun _ => Iff.rfl⟩

theorem Stage.congr {names' : List String} (h : Stage r names)
    (heq : ∀ name, name ∈ names ↔ name ∈ names') : Stage r names' :=
  ⟨h.sound, fun name => (h.mem_iff name).trans (heq name)⟩

theorem Stage.find?_eq_none_iff (h : Stage r names) (name : String) :
    r.find? name = none ↔ name ∉ names := by
  rw [h.sound.find?_eq_none_iff, h.mem_iff]

theorem Stage.grown {l : List Node} (h : Stage r names) (hg : Grown r l r') :
    Stage r' (names ++ l.map Node.name) := by
  refine ⟨hg.sound, fun name => ?_⟩
  rw [hg.nodes, List.map_append, List.mem_append, List.mem_append, h.mem_iff]

/-! ## Steps -/

theorem checks_add {n : Node} (hs : Stage r names) (hroom : r.nodes.size < Registry.capacity) :
    Checks (add n) r (clash names n.name) := by
  have hfind := hs.find?_eq_none_iff n.name
  rw [clash]
  split
  · rename_i hmem
    have hcontains : r.index.contains n.name := by
      have hsome : r.find? n.name ≠ none := by rwa [ne_eq, hfind, not_not]
      simpa [Registry.find?] using hsome
    simp [Checks, add, Registry.add, Nat.not_le.mpr hroom, hcontains, Logged.ofExcept]
  · rename_i hnot
    exact ⟨_, _, runs_add.mpr (Registry.add_eq_ok_iff.mpr ⟨hroom, hfind.mpr hnot, rfl, rfl⟩)⟩

theorem checks_position (missing : Failure) {name : String} (hs : Stage r names) :
    Checks (position missing name) r (if name ∈ names then [] else [missing]) := by
  have hfind := hs.find?_eq_none_iff name
  split
  · rename_i hmem
    obtain ⟨id, hid⟩ : ∃ id, r.find? name = some id := by
      rwa [← Option.ne_none_iff_exists', ne_eq, hfind, not_not]
    exact ⟨id, r, runs_position.mpr ⟨hid, rfl⟩⟩
  · rename_i hnot
    simp [Checks, position, hfind.mpr hnot, Logged.fail]

theorem checks_addInput {name : String} (hs : Stage r names)
    (hroom : r.nodes.size < Registry.capacity ∨ name ∈ names) : Checks (addInput name) r [] := by
  cases h : r.find? name with
  | some id => exact ⟨id, r, runs_addInput.mpr (.inl ⟨h, rfl⟩)⟩
  | none =>
    have hnot := (hs.find?_eq_none_iff name).mp h
    have hadd := (Registry.add_eq_ok_iff (n := .value name)).mpr
      ⟨hroom.resolve_right hnot, h, rfl, rfl⟩
    exact ⟨_, _, runs_addInput.mpr (.inr ⟨h, hadd⟩)⟩

theorem checks_mapM_cons {f : α → Build β} {a : α} {l : List α} {es es' : List Failure}
    (ha : Checks (f a) r es) (hl : ∀ b r', Runs (f a) r b r' → Checks (l.mapM f) r' es') :
    Checks ((a :: l).mapM f) r (es ++ es') := by
  rw [List.mapM_cons]
  exact ha.bind fun b r' hb => (hl b r' hb).map (b :: ·)

theorem checks_positions (missing : String → Failure) {l : List String} (hs : Stage r names) :
    Checks (l.mapM fun name => position (missing name) name) r
      ((l.filter fun name => !names.contains name).map missing) := by
  induction l with
  | nil => exact checks_pure []
  | cons name l ih =>
    have hcons := checks_mapM_cons (f := fun name => position (missing name) name)
      (checks_position (missing name) hs) fun id r' hid => (runs_position.mp hid).2 ▸ ih
    rw [List.filter_cons]
    by_cases hmem : name ∈ names
    · simpa [hmem] using hcons
    · simpa [hmem] using hcons

end Stage

end Build

end NetPack
