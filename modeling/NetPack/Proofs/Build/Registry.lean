import NetPack.Proofs.Matching
import NetPack.Registry

/-!
# The index of a registry and its nodes

The index of a registry is the inverse of its list of nodes (`Registry.Sound`): a name has a position if
and only if the node at that position has the name. So no name occurs twice (`Registry.Sound.nodup`).
The registration of a node keeps this (`Registry.Sound.add`).
-/

namespace NetPack

/-! ## Names of positions -/

/-- The name of the node at a position. -/
def nameAt? (ns : List Node) (id : NodeId) : Option String :=
  ns[id.toNat]?.map Node.name

/-- Position by position, a node of the given name stands there. -/
def Names (ns : List Node) (ids : List NodeId) (names : List String) : Prop :=
  List.Forall₂ (fun id name => nameAt? ns id = some name) ids names

theorem lt_of_nameAt? {ns : List Node} {id : NodeId} {name : String} (h : nameAt? ns id = some name) :
    id.toNat < ns.length := by
  obtain ⟨n, hn, -⟩ := Option.map_eq_some_iff.mp h
  exact (List.getElem?_eq_some_iff.mp hn).choose

theorem nameAt?_append {ns : List Node} {id : NodeId} {name : String}
    (h : nameAt? ns id = some name) (more : List Node) : nameAt? (ns ++ more) id = some name := by
  rw [nameAt?, List.getElem?_append_left (lt_of_nameAt? h)]
  exact h

theorem Names.append {ns : List Node} {ids : List NodeId} {names : List String}
    (h : Names ns ids names) (more : List Node) : Names (ns ++ more) ids names :=
  h.imp fun _ _ hn => nameAt?_append hn more

theorem Names.lt {ns : List Node} {ids : List NodeId} {names : List String} (h : Names ns ids names) :
    ∀ id ∈ ids, id.toNat < ns.length := by
  induction h with
  | nil => exact fun _ hid => absurd hid List.not_mem_nil
  | cons hn _ ih => exact List.forall_mem_cons.mpr ⟨lt_of_nameAt? hn, ih⟩

theorem eq_of_nameAt? {ns : List Node} {id id' : NodeId} {name : String}
    (hnodup : (ns.map Node.name).Nodup) (h : nameAt? ns id = some name)
    (h' : nameAt? ns id' = some name) : id = id' := by
  apply UInt32.toNat_inj.mp
  have hlt : id.toNat < (ns.map Node.name).length := by
    rw [List.length_map]
    exact lt_of_nameAt? h
  apply (List.getElem?_inj hlt hnodup).mp
  rw [List.getElem?_map, List.getElem?_map]
  exact h.trans h'.symm

/-- If no two nodes share a name, names have one position each. -/
theorem Names.unique {ns : List Node} {ids ids' : List NodeId} {names : List String}
    (hnodup : (ns.map Node.name).Nodup) (h : Names ns ids names) (h' : Names ns ids' names) : ids = ids' := by
  induction h generalizing ids' with
  | nil =>
    cases h'
    rfl
  | cons hat _ ih =>
    cases h' with
    | cons hat' htail => rw [eq_of_nameAt? hnodup hat hat', ih htail]

namespace Registry

/-! ## Registration -/

theorem add_eq_ok_iff {r r' : Registry} {n : Node} {id : NodeId} :
    r.add n = .ok (id, r') ↔ r.nodes.size < capacity ∧ r.find? n.name = none ∧
      id = UInt32.ofNat r.nodes.size ∧ r' = ⟨r.nodes.push n, r.index.insert n.name id⟩ := by
  rw [add]
  by_cases hfull : capacity ≤ r.nodes.size
  · simp [hfull, Nat.not_lt.mpr hfull]
  · by_cases hname : r.index.contains n.name
    · have hfind : r.find? n.name ≠ none := by
        simpa [find?] using hname
      simp [hfull, hname, hfind]
    · have hfind : r.find? n.name = none := by
        simpa [find?] using hname
      simp only [hfull, hname, hfind, Nat.lt_of_not_le hfull, if_false, true_and, Except.ok.injEq,
        Prod.mk.injEq, Bool.false_eq_true]
      constructor
      · rintro ⟨rfl, rfl⟩
        exact ⟨rfl, rfl⟩
      · rintro ⟨rfl, rfl⟩
        exact ⟨rfl, rfl⟩

/-! ## Soundness -/

/-- The index is the inverse of the list of nodes, and every position is a number of 32 bits. -/
structure Sound (r : Registry) : Prop where
  le_capacity : r.nodes.size ≤ capacity
  find?_iff : ∀ name id, r.find? name = some id ↔ nameAt? r.nodes.toList id = some name

theorem sound_empty : empty.Sound where
  le_capacity := Nat.zero_le _
  find?_iff := by
    intro name id
    simp [find?, empty, nameAt?]

theorem toNat_ofNat {i : Nat} (h : i < capacity) : (UInt32.ofNat i).toNat = i := by
  rw [UInt32.toNat_ofNat']
  exact Nat.mod_eq_of_lt h

theorem Sound.nodup {r : Registry} (h : r.Sound) : (r.nodes.toList.map Node.name).Nodup := by
  have hcap := h.le_capacity
  rw [List.nodup_iff_pairwise_ne, List.pairwise_iff_getElem]
  intro i j hi hj hij heq
  simp only [List.length_map, Array.length_toList] at hi hj
  simp only [List.getElem_map, Array.getElem_toList] at heq
  have hname : ∀ k (hk : k < r.nodes.size), r.find? r.nodes[k].name = some (UInt32.ofNat k) := by
    intro k hk
    rw [h.find?_iff, nameAt?, toNat_ofNat (by omega)]
    simp [hk]
  have hid := (hname i hi).symm.trans ((congrArg r.find? heq).trans (hname j hj))
  have hnat := congrArg UInt32.toNat (Option.some.inj hid)
  rw [toNat_ofNat (by omega), toNat_ofNat (by omega)] at hnat
  omega

theorem Sound.mem_of_find? {r : Registry} (h : r.Sound) {name : String} {id : NodeId}
    (hf : r.find? name = some id) : name ∈ r.nodes.toList.map Node.name := by
  obtain ⟨n, hn, rfl⟩ := Option.map_eq_some_iff.mp ((h.find?_iff name id).mp hf)
  exact List.mem_map_of_mem (List.mem_of_getElem? hn)

/-- A name has no position if and only if no node has it. -/
theorem Sound.find?_eq_none_iff {r : Registry} (h : r.Sound) (name : String) :
    r.find? name = none ↔ name ∉ r.nodes.toList.map Node.name := by
  constructor
  · intro hnone hmem
    obtain ⟨n, hn, rfl⟩ := List.mem_map.mp hmem
    obtain ⟨i, hi, rfl⟩ := List.mem_iff_getElem.mp hn
    have hcap := h.le_capacity
    rw [Array.length_toList] at hi
    have hsome : r.find? r.nodes.toList[i].name = some (UInt32.ofNat i) := by
      rw [h.find?_iff, nameAt?, toNat_ofNat (by omega)]
      simp [hi]
    cases hnone.symm.trans hsome
  · intro hnot
    cases hf : r.find? name with
    | none => rfl
    | some id => exact absurd (h.mem_of_find? hf) hnot

/-- The name at a position once a node is put behind the others. -/
theorem nameAt?_concat (ns : List Node) (n : Node) (id : NodeId) :
    nameAt? (ns ++ [n]) id =
      if id.toNat = ns.length then some n.name else nameAt? ns id := by
  rw [nameAt?, nameAt?, List.getElem?_append]
  split
  · rename_i hlt
    rw [if_neg (Nat.ne_of_lt hlt)]
  · rename_i hge
    rw [List.getElem?_singleton]
    split
    · rename_i hzero
      rw [if_pos (by omega), Option.map_some]
    · rename_i hne
      rw [if_neg (by omega), List.getElem?_eq_none (by omega)]

theorem Sound.add {r r' : Registry} {n : Node} {id : NodeId} (h : r.Sound)
    (ha : r.add n = .ok (id, r')) : r'.Sound := by
  obtain ⟨hroom, hfresh, rfl, rfl⟩ := add_eq_ok_iff.mp ha
  refine ⟨by simpa using Nat.succ_le_of_lt hroom, ?_⟩
  intro name id
  have hlen : r.nodes.toList.length = r.nodes.size := Array.length_toList
  have hlast : id = UInt32.ofNat r.nodes.size ↔ id.toNat = r.nodes.size := by
    rw [← UInt32.toNat_inj, toNat_ofNat hroom]
  rw [find?, Std.HashMap.getElem?_insert, Array.toList_push, nameAt?_concat, hlen]
  by_cases hname : n.name = name
  · subst hname
    rw [if_pos (beq_self_eq_true _), Option.some.injEq, eq_comm, hlast]
    split
    · simp_all
    · rename_i hne
      rw [← h.find?_iff, hfresh]
      simp [hne]
  · rw [if_neg (by simpa using hname)]
    split
    · rename_i heq
      rw [← find?, h.find?_iff, Option.some.injEq]
      refine ⟨fun hold => ?_, fun he => absurd he hname⟩
      have hlt := lt_of_nameAt? hold
      omega
    · exact h.find?_iff name id

end Registry

end NetPack
