import NetPack.Proofs.Build.Phases

/-!
# Sequences of registrations

A registration enters the name of a node into the index and then puts the node behind the others
(`Registry.enter`). In between, the index is ahead of the nodes, but no registration stops there, so that one
which fails leaves the registry as it was (`Registry.enter_eq`). After any sequence of registrations, failed ones
among them, the index is the inverse of the list of nodes, and a further node is refused exactly if its name is
there (`Registry.enter_after`).
-/

namespace NetPack.Registry

variable {r r' : Registry} {n : Node} {id : NodeId}

/-! ## One registration -/

/-- Registers a node step by step. A registry that this fails on is left as it is by then. -/
def enter (n : Node) : EStateM Failure Registry NodeId := do
  let r ← get
  let id := UInt32.ofNat r.nodes.size
  if capacity ≤ r.nodes.size then throw .tooManyNodes
  else if r.index.contains n.name then throw (.duplicateNodeName n.name)
  else
    modify fun r => { r with index := r.index.insert n.name id }
    modify fun r => { r with nodes := r.nodes.push n }
    pure id

/-- The steps make one registration, which changes nothing unless it succeeds. -/
theorem enter_eq (n : Node) (r : Registry) :
    (enter n).run r = match r.add n with
      | .ok (id, r') => .ok id r'
      | .error e => .error e r := by
  rw [add]
  unfold enter
  simp only [EStateM.run_bind, EStateM.run_get]
  by_cases hfull : capacity ≤ r.nodes.size
  · rw [if_pos hfull, if_pos hfull]
    rfl
  · rw [if_neg hfull, if_neg hfull]
    by_cases hname : r.index.contains n.name
    · rw [if_pos hname, if_pos hname]
      rfl
    · rw [if_neg hname, if_neg hname]
      rfl

theorem enter_eq_ok_iff : (enter n).run r = .ok id r' ↔ r.add n = .ok (id, r') := by
  rw [enter_eq]
  cases r.add n with
  | error e => exact iff_of_false (by simp) (by simp)
  | ok p =>
    rw [EStateM.Result.ok.injEq, Except.ok.injEq]
    exact Prod.mk.injEq .. ▸ Iff.rfl

theorem enter_eq_error_iff {e : Failure} : (enter n).run r = .error e r' ↔ r.add n = .error e ∧ r' = r := by
  rw [enter_eq]
  cases r.add n with
  | error e' => rw [EStateM.Result.error.injEq, Except.error.injEq, eq_comm (a := r)]
  | ok p => exact iff_of_false (by simp) (by simp)

/-- As long as there is room, only a name that is there is refused. -/
theorem Sound.add_eq_error_iff {e : Failure} (h : r.Sound) (hroom : r.nodes.size < capacity) :
    r.add n = .error e ↔ (∃ m ∈ r.nodes, m.name = n.name) ∧ e = .duplicateNodeName n.name := by
  have hpresent : r.index.contains n.name ↔ ∃ m ∈ r.nodes, m.name = n.name := by
    rw [← not_iff_not, Std.HashMap.contains_eq_isSome_getElem?, Option.not_isSome_iff_eq_none]
    refine (h.find?_eq_none_iff n.name).trans (not_congr ?_)
    simp
  rw [Registry.add, if_neg (Nat.not_le.mpr hroom), ← hpresent]
  by_cases hname : r.index.contains n.name
  · rw [if_pos hname, Except.error.injEq, eq_comm, and_iff_right hname]
  · rw [if_neg hname]
    exact iff_of_false (by simp) fun h => hname h.1

theorem find?_of_add (ha : r.add n = .ok (id, r')) : r'.find? n.name = some id := by
  obtain ⟨-, -, -, rfl⟩ := add_eq_ok_iff.mp ha
  exact Std.HashMap.getElem?_insert_self

theorem find?_of_add_ne (ha : r.add n = .ok (id, r')) {name : String} (hne : name ≠ n.name) :
    r'.find? name = r.find? name := by
  obtain ⟨-, -, -, rfl⟩ := add_eq_ok_iff.mp ha
  rw [find?, Std.HashMap.getElem?_insert, if_neg (by simpa using hne.symm)]
  rfl

theorem Sound.constant?_of_add_ne (h : r.Sound) (ha : r.add n = .ok (id, r')) {name : String}
    (hne : name ≠ n.name) : r'.constant? name = r.constant? name := by
  refine Option.ext fun c => ?_
  rw [h.constant?_eq_some_iff, (h.add ha).constant?_eq_some_iff, (Grown.of_add h ha).nodes, List.mem_append,
    List.mem_singleton]
  refine and_congr_left fun hc => or_iff_left ?_
  rintro rfl
  exact hne hc.symm

/-! ## Sequences -/

/-- The registry that a registration leaves, successful or not. -/
def next (r : Registry) (n : Node) : Registry :=
  match (enter n).run r with
  | .ok _ r' => r'
  | .error _ r' => r'

/-- The registry after a sequence of registrations. -/
def after (r : Registry) (ns : List Node) : Registry :=
  ns.foldl next r

theorem Sound.next (h : r.Sound) (n : Node) : (r.next n).Sound := by
  unfold Registry.next
  cases henter : (enter n).run r with
  | ok id r' => exact h.add (enter_eq_ok_iff.mp henter)
  | error e r' =>
    obtain ⟨-, rfl⟩ := enter_eq_error_iff.mp henter
    exact h

theorem Sound.after (h : r.Sound) (ns : List Node) : (r.after ns).Sound := by
  induction ns generalizing r with
  | nil => exact h
  | cons n ns ih => exact ih (h.next n)

/-- The nodes that are there after one more registration, as long as there is room. -/
def entered (ms : List Node) (n : Node) : List Node :=
  if ∃ m ∈ ms, m.name = n.name then ms else ms ++ [n]

theorem length_entered_le (ms : List Node) (n : Node) : (entered ms n).length ≤ ms.length + 1 := by
  rw [entered]
  split
  · exact Nat.le_succ _
  · simp

theorem Sound.nodes_next (h : r.Sound) (hroom : r.nodes.size < capacity) (n : Node) :
    (r.next n).nodes.toList = entered r.nodes.toList n := by
  unfold Registry.next
  cases henter : (enter n).run r with
  | ok id r' =>
    obtain ⟨-, hname, -, rfl⟩ := add_eq_ok_iff.mp (enter_eq_ok_iff.mp henter)
    have habsent : ¬ ∃ m ∈ r.nodes.toList, m.name = n.name := by
      simpa using (h.find?_eq_none_iff n.name).mp hname
    rw [entered, if_neg habsent]
    exact Array.toList_push
  | error e r' =>
    obtain ⟨hadd, rfl⟩ := enter_eq_error_iff.mp henter
    obtain ⟨m, hm, hname⟩ := ((h.add_eq_error_iff hroom).mp hadd).1
    rw [entered, if_pos ⟨m, Array.mem_toList_iff.mpr hm, hname⟩]

/-- After a sequence that there is room for, the nodes are those of the first registration of each name. -/
theorem Sound.nodes_after (h : r.Sound) (ns : List Node) (hroom : r.nodes.size + ns.length ≤ capacity) :
    (r.after ns).nodes.toList = ns.foldl entered r.nodes.toList := by
  induction ns generalizing r with
  | nil => rfl
  | cons n ns ih =>
    rw [List.length_cons] at hroom
    have hnext := h.nodes_next (by omega) n
    have hsize := length_entered_le r.nodes.toList n
    rw [← hnext, Array.length_toList, Array.length_toList] at hsize
    rw [List.foldl_cons, ← hnext]
    exact ih (h.next n) (by omega)

/-- After any registrations, failed ones among them, the index leads from a name to a position exactly if the node
there has the name. As long as there is room, a further registration fails exactly if its name is there, and then
nothing is changed; else the node is put behind the others, and all that was found is found as before. -/
theorem enter_after (ns : List Node) :
    let r := empty.after ns
    (∀ (name : String) (id : NodeId),
      r.index[name]? = some id ↔ ∃ h : id.toNat < r.nodes.size, r.nodes[id.toNat].name = name) ∧
    (∀ n, (enter n).run r = match r.add n with
      | .ok (id, r') => .ok id r'
      | .error e => .error e r) ∧
    (r.nodes.size < capacity → ∀ n,
      ((∃ e r', (enter n).run r = .error e r') ↔ ∃ m ∈ r.nodes, m.name = n.name) ∧
      (∀ e r', (enter n).run r = .error e r' → e = .duplicateNodeName n.name ∧ r' = r) ∧
      ∀ id r', (enter n).run r = .ok id r' → id.toNat = r.nodes.size ∧ r'.nodes = r.nodes.push n ∧
        r'.find? n.name = some id ∧
        ∀ name, name ≠ n.name → r'.find? name = r.find? name ∧ r'.constant? name = r.constant? name) := by
  intro r
  have hs : r.Sound := sound_empty.after ns
  refine ⟨fun name id => ?_, fun n => enter_eq n r, fun hroom n => ⟨?_, ?_, ?_⟩⟩
  · rw [← find?, hs.find?_iff, nameAt?, Option.map_eq_some_iff]
    simp [Array.getElem?_eq_some_iff]
  · simp only [enter_eq_error_iff, hs.add_eq_error_iff hroom]
    constructor
    · rintro ⟨e, r', ⟨hname, -⟩, -⟩
      exact hname
    · intro hname
      exact ⟨_, _, ⟨hname, rfl⟩, rfl⟩
  · intro e r' he
    obtain ⟨hadd, hr⟩ := enter_eq_error_iff.mp he
    exact ⟨((hs.add_eq_error_iff hroom).mp hadd).2, hr⟩
  · intro id r' hok
    have ha := enter_eq_ok_iff.mp hok
    obtain ⟨-, -, hid, hr⟩ := add_eq_ok_iff.mp ha
    refine ⟨by rw [hid, toNat_ofNat hroom], by rw [hr], find?_of_add ha, fun name hne => ?_⟩
    exact ⟨find?_of_add_ne ha hne, hs.constant?_of_add_ne ha hne⟩

/-- The second registration of the name fails, and the third one goes on where the first one ended. -/
def repeatedNames : List Node :=
  [.value "x", .constant ⟨"x", [1], .int [7], rfl⟩, .value "y"]

theorem enter_repeatedNames :
    (empty.after repeatedNames).nodes.size < capacity ∧
    (enter (.value "x")).run (empty.after repeatedNames)
      = .error (.duplicateNodeName "x") (empty.after repeatedNames) := by
  have hnodes : (empty.after repeatedNames).nodes.toList = [.value "x", .value "y"] :=
    sound_empty.nodes_after repeatedNames (by decide)
  have hroom : (empty.after repeatedNames).nodes.size < capacity := by
    rw [← Array.length_toList, hnodes]
    decide
  obtain ⟨-, -, hstep⟩ := enter_after repeatedNames
  obtain ⟨hfails, hrefused, -⟩ := hstep hroom (.value "x")
  obtain ⟨e, r', he⟩ := hfails.mpr ⟨.value "x", by simp [← Array.mem_toList_iff, hnodes], rfl⟩
  obtain ⟨rfl, rfl⟩ := hrefused e r' he
  exact ⟨hroom, he⟩

end NetPack.Registry
