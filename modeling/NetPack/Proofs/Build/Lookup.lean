import Mathlib.Data.List.Nodup
import NetPack.Proofs.Build.Registry

/-!
# The constants of a registry

Since no two nodes of a registry share a name, the constant of a name that its index leads to is the one that
the list of its constants has (`Registry.Sound.constant?_eq`).
-/

namespace NetPack

theorem Node.constant?_eq_some_iff {x : Node} {c : Constant} :
    x.constant? = some c ↔ x = .constant c := by
  cases x with
  | constant c' => simp [constant?]
  | operator o => simp [constant?]
  | value name => simp [constant?]

theorem mem_filterMap_constant? {ns : List Node} {c : Constant} :
    c ∈ ns.filterMap Node.constant? ↔ .constant c ∈ ns := by
  simp [List.mem_filterMap, Node.constant?_eq_some_iff]

theorem ConstantTable.ofList_eq_some_iff {cs : List Constant} {name : String} {c : Constant}
    (h : ∀ a ∈ cs, ∀ b ∈ cs, a.name = b.name → a = b) :
    ofList cs name = some c ↔ c ∈ cs ∧ c.name = name := by
  rw [ofList]
  constructor
  · intro hc
    exact ⟨List.mem_reverse.mp (List.mem_of_find?_eq_some hc), by simpa using List.find?_some hc⟩
  · rintro ⟨hc, rfl⟩
    cases hfind : cs.reverse.find? fun d => d.name == c.name with
    | none => simpa using List.find?_eq_none.mp hfind c (List.mem_reverse.mpr hc)
    | some d =>
      have hd : d ∈ cs := List.mem_reverse.mp (List.mem_of_find?_eq_some hfind)
      have hname : d.name = c.name := by simpa using List.find?_some hfind
      rw [h d hd c hc hname]

namespace Registry

theorem Sound.eq_of_name_eq {r : Registry} (h : r.Sound) {x y : Node} (hx : x ∈ r.nodes.toList)
    (hy : y ∈ r.nodes.toList) (heq : x.name = y.name) : x = y :=
  List.inj_on_of_nodup_map h.nodup hx hy heq

theorem Sound.find?_of_mem {r : Registry} (h : r.Sound) {x : Node} (hx : x ∈ r.nodes.toList) :
    ∃ id, r.find? x.name = some id ∧ r.nodes[id.toNat]? = some x := by
  obtain ⟨id, hid⟩ : ∃ id, r.find? x.name = some id := by
    rw [← Option.ne_none_iff_exists', ne_eq, h.find?_eq_none_iff, not_not]
    exact List.mem_map_of_mem hx
  obtain ⟨y, hy, hname⟩ := Option.map_eq_some_iff.mp ((h.find?_iff _ _).mp hid)
  obtain rfl := h.eq_of_name_eq (List.mem_of_getElem? hy) hx hname
  exact ⟨id, hid, by simpa using hy⟩

theorem Sound.constant?_eq_some_iff {r : Registry} (h : r.Sound) {name : String} {c : Constant} :
    r.constant? name = some c ↔ .constant c ∈ r.nodes.toList ∧ c.name = name := by
  constructor
  · intro hc
    obtain ⟨id, hid, hrest⟩ := Option.bind_eq_some_iff.mp hc
    obtain ⟨x, hx, hxc⟩ := Option.bind_eq_some_iff.mp hrest
    obtain rfl := Node.constant?_eq_some_iff.mp hxc
    have hat : r.nodes.toList[id.toNat]? = some (.constant c) := by simpa using hx
    obtain ⟨y, hy, hname⟩ := Option.map_eq_some_iff.mp ((h.find?_iff name id).mp hid)
    cases hat.symm.trans hy
    exact ⟨List.mem_of_getElem? hat, hname⟩
  · rintro ⟨hc, rfl⟩
    obtain ⟨id, hid, hat⟩ := h.find?_of_mem hc
    rw [show (Node.constant c).name = c.name from rfl] at hid
    simp [constant?, hid, hat, Node.constant?]

/-- The constant of a name is found in a registry as in the list of its constants. -/
theorem Sound.constant?_eq {r : Registry} (h : r.Sound) :
    r.constant? = .ofList (r.nodes.toList.filterMap Node.constant?) := by
  funext name
  refine Option.ext fun c => ?_
  rw [h.constant?_eq_some_iff, ConstantTable.ofList_eq_some_iff, mem_filterMap_constant?]
  intro a ha b hb hname
  cases h.eq_of_name_eq (mem_filterMap_constant?.mp ha) (mem_filterMap_constant?.mp hb) hname
  rfl

end Registry

end NetPack
