import Mathlib.Data.List.Nodup
import NetPack.Sample

/-!
# The names of the sample network

Each block has six names, in which its number stands between a stem and a part that have no digits. So the number
can be read back from the name (`eq_of_numbered`), the names of all blocks differ, and they differ from the other
names, which have no digits at all (`nodup_names`).
-/

namespace NetPack.Sample

/-! ## Lists of blocks -/

section Blocks

variable {α : Type} {f : Nat → List α} {size : Nat}

theorem length_flatMap_range (hf : ∀ i, (f i).length = size) (depth : Nat) :
    ((List.range depth).flatMap f).length = size * depth := by
  induction depth with
  | zero => rfl
  | succ depth ih =>
    rw [List.range_succ, List.flatMap_append, List.length_append, ih, List.flatMap_singleton, hf, Nat.mul_succ]

theorem getElem?_flatMap_range (hf : ∀ i, (f i).length = size) {depth i j : Nat} (hi : i < depth) (hj : j < size) :
    ((List.range depth).flatMap f)[size * i + j]? = (f i)[j]? := by
  induction depth with
  | zero => exact absurd hi (Nat.not_lt_zero i)
  | succ depth ih =>
    have hlength := length_flatMap_range hf depth
    rw [List.range_succ, List.flatMap_append, List.flatMap_singleton]
    rcases Nat.lt_or_eq_of_le (Nat.le_of_lt_succ hi) with hlt | rfl
    · have hle : size * i + size ≤ size * depth := Nat.mul_succ size i ▸ Nat.mul_le_mul_left size hlt
      rw [List.getElem?_append_left (by omega)]
      exact ih hlt
    · rw [List.getElem?_append_right (by omega), hlength, Nat.add_sub_cancel_left]

end Blocks

/-! ## Names with numbers -/

/-- The stem and the part of the names of the constants of a block. -/
def constantParts : List (String × String) :=
  [("conv", ".weight"), ("conv", ".bias")]

/-- The stem and the part of the names of the values and operators of a block. -/
def operatorParts : List (String × String) :=
  [("conv", ".out"), ("conv", ""), ("relu", ".out"), ("relu", "")]

def blockParts : List (String × String) :=
  constantParts ++ operatorParts

/-- The names of a block that are made of given stems and parts. -/
def blockNames (parts : List (String × String)) (i : Nat) : List String :=
  parts.map fun q => numbered q.1 i q.2

def digits (s : String) : List Char :=
  s.toList.filter fun c => c.isDigit

def letters (s : String) : List Char :=
  s.toList.filter fun c => !c.isDigit

theorem isDigit_of_mem_toString {i : Nat} {c : Char} (h : c ∈ (toString i).toList) : c.isDigit = true := by
  rw [Nat.toString_eq_repr, Nat.toList_repr] at h
  exact Nat.isDigit_of_mem_toDigits (by decide) (by decide) h

theorem digits_toString (i : Nat) : digits (toString i) = (toString i).toList :=
  List.filter_eq_self.mpr fun _ => isDigit_of_mem_toString

theorem letters_toString (i : Nat) : letters (toString i) = [] :=
  List.filter_eq_nil_iff.mpr fun c hc => by rw [isDigit_of_mem_toString hc]; decide

theorem eq_of_toString {i i' : Nat} (h : toString i = toString i') : i = i' := by
  rw [Nat.toString_eq_repr, Nat.toString_eq_repr] at h
  have hdigits := congrArg (fun s : String => Nat.ofDigitChars 10 s.toList 0) h
  simpa [Nat.toList_repr] using hdigits

theorem digits_append (s t : String) : digits (s ++ t) = digits s ++ digits t := by
  unfold digits
  rw [String.toList_append, List.filter_append]

theorem letters_append (s t : String) : letters (s ++ t) = letters s ++ letters t := by
  unfold letters
  rw [String.toList_append, List.filter_append]

theorem digits_numbered {q : String × String} (hq : q ∈ blockParts) (i : Nat) :
    digits (numbered q.1 i q.2) = (toString i).toList := by
  have hplain : ∀ q ∈ blockParts, digits q.1 = [] ∧ digits q.2 = [] := by decide
  rw [numbered, digits_append, digits_append, digits_toString, (hplain q hq).1, (hplain q hq).2, List.nil_append,
    List.append_nil]

theorem letters_numbered (q : String × String) (i : Nat) :
    letters (numbered q.1 i q.2) = letters q.1 ++ letters q.2 := by
  rw [numbered, letters_append, letters_append, letters_toString, List.append_nil]

/-- The stem and the part of a name follow from its letters, and the number from its digits. -/
theorem eq_of_numbered {q q' : String × String} {i i' : Nat} (hq : q ∈ blockParts) (hq' : q' ∈ blockParts)
    (h : numbered q.1 i q.2 = numbered q'.1 i' q'.2) : q = q' ∧ i = i' := by
  have hinj : ∀ q ∈ blockParts, ∀ q' ∈ blockParts,
      letters q.1 ++ letters q.2 = letters q'.1 ++ letters q'.2 → q = q' := by
    decide
  constructor
  · have hletters := congrArg letters h
    rw [letters_numbered, letters_numbered] at hletters
    exact hinj q hq q' hq' hletters
  · have hdigits := congrArg digits h
    rw [digits_numbered hq, digits_numbered hq'] at hdigits
    exact eq_of_toString (String.toList_inj.mp hdigits)

section Parts

variable {parts parts' : List (String × String)} {depth : Nat} {name : String}

theorem mem_blocks : name ∈ (List.range depth).flatMap (blockNames parts) ↔
    ∃ i < depth, ∃ q ∈ parts, numbered q.1 i q.2 = name := by
  simp only [List.mem_flatMap, List.mem_range, blockNames, List.mem_map]

theorem digits_ne_nil (hparts : parts ⊆ blockParts) (h : name ∈ (List.range depth).flatMap (blockNames parts)) :
    digits name ≠ [] := by
  obtain ⟨i, -, q, hq, rfl⟩ := mem_blocks.mp h
  rw [digits_numbered (hparts hq), Nat.toString_eq_repr, Nat.toList_repr]
  exact Nat.toDigits_ne_nil

theorem nodup_blocks (hparts : parts ⊆ blockParts) (hnodup : parts.Nodup) (depth : Nat) :
    ((List.range depth).flatMap (blockNames parts)).Nodup := by
  rw [List.nodup_flatMap]
  constructor
  · intro i _
    exact hnodup.map_on fun q hq q' hq' h => (eq_of_numbered (hparts hq) (hparts hq') h).1
  · refine List.nodup_range.imp fun {i j} hij name hi hj => ?_
    obtain ⟨q, hq, rfl⟩ := List.mem_map.mp hi
    obtain ⟨q', hq', h⟩ := List.mem_map.mp hj
    exact hij (eq_of_numbered (hparts hq') (hparts hq) h).2.symm

theorem disjoint_blocks (hparts : parts ⊆ blockParts) (hparts' : parts' ⊆ blockParts)
    (hdisjoint : ∀ q ∈ parts, q ∉ parts') (depth : Nat) :
    List.Disjoint ((List.range depth).flatMap (blockNames parts))
      ((List.range depth).flatMap (blockNames parts')) := by
  intro name h h'
  obtain ⟨i, -, q, hq, hname⟩ := mem_blocks.mp h
  obtain ⟨i', -, q', hq', hname'⟩ := mem_blocks.mp h'
  obtain ⟨rfl, -⟩ := eq_of_numbered (hparts hq) (hparts' hq') (hname.trans hname'.symm)
  exact hdisjoint q hq hq'

end Parts

/-! ## All names -/

/-- The names between the constants and the operators of the blocks. -/
def middleNames : List String :=
  ["flat_shape", "fc.weight", "input"]

/-- The names behind the blocks. -/
def tailNames : List String :=
  ["pooled", "pool", "flat", "flatten", "logits", "fc", "output", "softmax"]

/-- The names of the nodes of the sample network of a depth, in order. -/
def names (depth : Nat) : List String :=
  (List.range depth).flatMap (blockNames constantParts)
    ++ (middleNames ++ ((List.range depth).flatMap (blockNames operatorParts) ++ tailNames))

theorem length_constants (depth : Nat) :
    ((List.range depth).flatMap (blockNames constantParts)).length = 2 * depth := by
  have hlength (i : Nat) : (blockNames constantParts i).length = 2 := rfl
  exact length_flatMap_range hlength depth

theorem length_operators (depth : Nat) :
    ((List.range depth).flatMap (blockNames operatorParts)).length = 4 * depth := by
  have hlength (i : Nat) : (blockNames operatorParts i).length = 4 := rfl
  exact length_flatMap_range hlength depth

theorem length_names (depth : Nat) : (names depth).length = 6 * depth + 11 := by
  rw [names, List.length_append, List.length_append, List.length_append, length_constants, length_operators]
  simp only [middleNames, tailNames, List.length_cons, List.length_nil]
  omega

theorem nodup_names (depth : Nat) : (names depth).Nodup := by
  have hconstants : constantParts ⊆ blockParts := List.subset_append_left _ _
  have hoperators : operatorParts ⊆ blockParts := List.subset_append_right _ _
  have hplain : ∀ name ∈ middleNames ++ tailNames, digits name = [] := by decide
  -- The names without digits are put behind the others.
  have hperm : (names depth).Perm ((List.range depth).flatMap (blockNames constantParts)
      ++ (List.range depth).flatMap (blockNames operatorParts) ++ (middleNames ++ tailNames)) := by
    rw [List.append_assoc]
    exact (List.perm_append_comm_assoc _ _ _).append_left _
  rw [hperm.nodup_iff, List.nodup_append', List.nodup_append']
  refine ⟨⟨nodup_blocks hconstants (by decide) depth, nodup_blocks hoperators (by decide) depth,
    disjoint_blocks hconstants hoperators (by decide) depth⟩, by decide, ?_⟩
  intro name h h'
  rcases List.mem_append.mp h with h | h
  · exact digits_ne_nil hconstants h (hplain name h')
  · exact digits_ne_nil hoperators h (hplain name h')

end NetPack.Sample
