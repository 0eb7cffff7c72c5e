import NetPack.Proofs.Matching
import NetPack.Proofs.Schema.Access

/-!
# Tables that answer alike

Two sorts of tables simulate each other if related tables of a kind give the same bytes, words, texts and
lists of words, and related tables wherever they give tables (`Simulation`). Nothing else can be asked of a
table, so related tables have the same content (`Simulation.model_eq`). The proof follows the definition of
the content, kind of table by kind of table. A chain of accessors on the one side follows one on the other
(`Simulation.reaches`).
-/

namespace NetPack.Schema

open Buffer (TableLike)

variable {T T' : Type} [TableLike T] [TableLike T']

/-- Related tables of a kind answer alike to each accessor of the kind. -/
structure Simulation (R : TableType → T → T' → Prop) : Prop where
  byte {t : TableType} {x : T} {y : T'} {s : Nat} : R t x y → t.field? s = some .byte →
    TableLike.byte? x s = TableLike.byte? y s
  word {t : TableType} {x : T} {y : T'} {s : Nat} : R t x y → t.field? s = some .word →
    TableLike.word? x s = TableLike.word? y s
  text {t : TableType} {x : T} {y : T'} {s : Nat} : R t x y → t.field? s = some .text →
    TableLike.text? x s = TableLike.text? y s
  words {t : TableType} {x : T} {y : T'} {s : Nat} : R t x y → t.field? s = some .words →
    TableLike.words? x s = TableLike.words? y s
  table {t t' : TableType} {x : T} {y : T'} {s : Nat} : R t x y → t.field? s = some (.table t') →
    Option.Rel (R t') (TableLike.table? x s) (TableLike.table? y s)
  tables {t t' : TableType} {x : T} {y : T'} {s : Nat} : R t x y → t.field? s = some (.tables t') →
    Option.Rel (List.Forall₂ (R t')) (TableLike.tables? x s) (TableLike.tables? y s)
  member {t t' : TableType} {x : T} {y : T'} {s kind : Nat} {u : UnionType} : R t x y →
    t.field? s = some (.member kind u) → u.member? (byteAt y kind) = some t' →
    Option.Rel (R t') (TableLike.table? x s) (TableLike.table? y s)

theorem map_eq_of_rel {α β γ : Type} {S : α → β → Prop} {a : Option α} {b : Option β} {f : α → γ} {g : β → γ}
    (h : Option.Rel S a b) (hfg : ∀ x y, S x y → f x = g y) : a.map f = b.map g := by
  cases h with
  | none => rfl
  | some hxy => exact congrArg some (hfg _ _ hxy)

theorem isSome_eq_of_rel {α β : Type} {S : α → β → Prop} {a : Option α} {b : Option β}
    (h : Option.Rel S a b) : a.isSome = b.isSome := by
  cases h <;> rfl

theorem rel_swap {α β : Type} {S : α → β → Prop} {S' : β → α → Prop} {a : Option α} {b : Option β}
    (h : Option.Rel S a b) (hS : ∀ x y, S x y → S' y x) : Option.Rel S' b a := by
  cases h with
  | none => exact .none
  | some hxy => exact .some (hS _ _ hxy)

namespace Simulation

variable {R : TableType → T → T' → Prop} {t : TableType} {x : T} {y : T'} {s : Nat}

/-! ## Fields -/

section Fields

variable (hR : Simulation R) (h : R t x y)

include hR h

theorem byteAt_eq (hf : t.field? s = some .byte) : byteAt x s = byteAt y s := by
  rw [byteAt, byteAt, hR.byte h hf]

theorem boolAt_eq (hf : t.field? s = some .byte) : boolAt x s = boolAt y s := by
  rw [boolAt, boolAt, hR.byteAt_eq h hf]

theorem wordAt_eq (hf : t.field? s = some .word) : wordAt x s = wordAt y s := by
  rw [wordAt, wordAt, hR.word h hf]

theorem intAt_eq (hf : t.field? s = some .word) : intAt x s = intAt y s := by
  rw [intAt, intAt, hR.wordAt_eq h hf]

theorem floatAt_eq (hf : t.field? s = some .word) : floatAt x s = floatAt y s := by
  rw [floatAt, floatAt, hR.wordAt_eq h hf]

theorem unsignedsAt?_eq (hf : t.field? s = some .words) : unsignedsAt? x s = unsignedsAt? y s :=
  hR.words h hf

theorem intsAt?_eq (hf : t.field? s = some .words) : intsAt? x s = intsAt? y s := by
  rw [intsAt?, intsAt?, hR.words h hf]

theorem floatsAt?_eq (hf : t.field? s = some .words) : floatsAt? x s = floatsAt? y s := by
  rw [floatsAt?, floatsAt?, hR.words h hf]

theorem textAt?_eq (hf : t.field? s = some .text) : textAt? x s = textAt? y s := by
  rw [textAt?, textAt?, hR.text h hf]

/-- A union gives related tables, or none, for each kind that is asked for. -/
theorem union {kind : Nat} {u : UnionType} (hf : t.field? s = some (.member kind u)) (asked : TableType) :
    Option.Rel (R asked) (u.table? x kind asked s) (u.table? y kind asked s) := by
  have hb := hR.byteAt_eq h (field?_kind hf)
  unfold UnionType.table? Schema.member?
  rw [hb]
  by_cases hu : u.member? (byteAt y kind) = some asked
  · rw [if_pos hu, if_pos hu]
    exact hR.member h hf hu
  · rw [if_neg hu, if_neg hu]
    exact .none

end Fields

/-! ## Contents -/

section Contents

variable (hR : Simulation R)

include hR

theorem pool_eq {a : AttrsTable} (h : R (.attrs a) x y) (ha : a = .averagePool ∨ a = .maxPool) :
    PoolContent.of x = PoolContent.of y := by
  rcases ha with rfl | rfl
  all_goals
    rw [PoolContent.of, PoolContent.of, hR.unsignedsAt?_eq h rfl, hR.byteAt_eq h rfl, hR.unsignedsAt?_eq h rfl,
      hR.unsignedsAt?_eq h rfl]

theorem conv_eq (h : R (.attrs .conv) x y) : ConvContent.of x = ConvContent.of y := by
  rw [ConvContent.of, ConvContent.of, hR.wordAt_eq h rfl, hR.byteAt_eq h rfl, hR.unsignedsAt?_eq h rfl,
    hR.wordAt_eq h rfl]

theorem constantOfShape_eq (h : R (.attrs .constantOfShape) x y) :
    AttrsContent.of x .constantOfShape = AttrsContent.of y .constantOfShape := by
  have hunion := hR.union h (s := Slot.ConstantOfShape.value) rfl
  rw [constantOfShape_content, constantOfShape_content, hR.byteAt_eq h rfl,
    map_eq_of_rel (hunion (.scalar .int)) fun z w hz => hR.intAt_eq hz rfl,
    map_eq_of_rel (hunion (.scalar .float)) fun z w hz => hR.floatAt_eq hz rfl]

theorem attrs_eq {a : AttrsTable} (h : R (.attrs a) x y) : AttrsContent.of x a = AttrsContent.of y a := by
  cases a with
  | averagePool => rw [AttrsContent.of, AttrsContent.of, hR.pool_eq h (.inl rfl)]
  | maxPool => rw [AttrsContent.of, AttrsContent.of, hR.pool_eq h (.inr rfl)]
  | batchNormalization => rw [AttrsContent.of, AttrsContent.of, hR.floatAt_eq h rfl]
  | cast => rw [AttrsContent.of, AttrsContent.of, hR.byteAt_eq h rfl]
  | clip => rw [AttrsContent.of, AttrsContent.of, hR.floatAt_eq h rfl, hR.floatAt_eq h rfl]
  | concat => rw [AttrsContent.of, AttrsContent.of, hR.intAt_eq h rfl]
  | constantOfShape => exact hR.constantOfShape_eq h
  | conv => rw [AttrsContent.of, AttrsContent.of, hR.conv_eq h]
  | convTranspose => rw [AttrsContent.of, AttrsContent.of, hR.wordAt_eq h rfl]
  | gather => rw [AttrsContent.of, AttrsContent.of, hR.intAt_eq h rfl]
  | gemm =>
    rw [AttrsContent.of, AttrsContent.of, hR.floatAt_eq h rfl, hR.floatAt_eq h rfl, hR.boolAt_eq h rfl,
      hR.boolAt_eq h rfl]
  | leakyRelu => rw [AttrsContent.of, AttrsContent.of, hR.floatAt_eq h rfl]
  | reduceMean => rw [AttrsContent.of, AttrsContent.of, hR.intsAt?_eq h rfl, hR.boolAt_eq h rfl]
  | resize => rw [AttrsContent.of, AttrsContent.of, hR.byteAt_eq h rfl]
  | softmax => rw [AttrsContent.of, AttrsContent.of, hR.intAt_eq h rfl]
  | split => rw [AttrsContent.of, AttrsContent.of, hR.intAt_eq h rfl, hR.unsignedsAt?_eq h rfl]
  | squeeze => rw [AttrsContent.of, AttrsContent.of, hR.intsAt?_eq h rfl]
  | transpose => rw [AttrsContent.of, AttrsContent.of, hR.unsignedsAt?_eq h rfl]
  | unsqueeze => rw [AttrsContent.of, AttrsContent.of, hR.intsAt?_eq h rfl]

theorem operator_eq (h : R .operator x y) : OperatorContent.of x = OperatorContent.of y := by
  have hattrs : ∀ a, (UnionType.attrs.table? x Slot.Operator.attrsType (.attrs a) Slot.Operator.attrs).map
        (fun z => AttrsContent.of z a)
      = (UnionType.attrs.table? y Slot.Operator.attrsType (.attrs a) Slot.Operator.attrs).map
        fun z => AttrsContent.of z a :=
    fun a => map_eq_of_rel (hR.union h rfl (.attrs a)) fun z w hz => hR.attrs_eq hz
  simp only [operator_content, hattrs]
  rw [hR.byteAt_eq h rfl, hR.byteAt_eq h rfl, hR.unsignedsAt?_eq h rfl, hR.unsignedsAt?_eq h rfl]

theorem constant_eq (h : R .constant x y) : ConstantContent.of x = ConstantContent.of y := by
  have hunion := hR.union h (s := Slot.Constant.data) rfl
  rw [constant_content, constant_content, hR.unsignedsAt?_eq h rfl, hR.byteAt_eq h rfl,
    map_eq_of_rel (hunion (.elements .float)) fun z w hz => hR.floatsAt?_eq hz rfl,
    map_eq_of_rel (hunion (.elements .int)) fun z w hz => hR.intsAt?_eq hz rfl]

theorem node_eq (h : R .node x y) : NodeContent.of x = NodeContent.of y := by
  have hunion := hR.union h (s := Slot.Node.data) rfl
  rw [node_content, node_content, hR.textAt?_eq h rfl, hR.byteAt_eq h rfl, isSome_eq_of_rel (hunion .value),
    map_eq_of_rel (hunion .operator) fun z w hz => hR.operator_eq hz,
    map_eq_of_rel (hunion .constant) fun z w hz => hR.constant_eq hz]

theorem graph_eq (h : R .graph x y) : GraphContent.of x = GraphContent.of y := by
  have hnodes : (TableLike.tables? x Slot.Graph.nodes).map (fun ns => ns.map NodeContent.of)
      = (TableLike.tables? y Slot.Graph.nodes).map fun ns => ns.map NodeContent.of :=
    map_eq_of_rel (hR.tables h rfl) fun xs ys hall => map_eq_of_forall₂ hall fun z w _ hz => hR.node_eq hz
  rw [GraphContent.of, GraphContent.of, hnodes, hR.unsignedsAt?_eq h rfl, hR.unsignedsAt?_eq h rfl]

/-- Related tables have the same content. -/
theorem model_eq (h : R .model x y) : ModelContent.of x = ModelContent.of y := by
  have hgraph : (TableLike.table? x Slot.Model.graph).map GraphContent.of
      = (TableLike.table? y Slot.Model.graph).map GraphContent.of :=
    map_eq_of_rel (hR.table h rfl) fun z w hz => hR.graph_eq hz
  rw [ModelContent.of, ModelContent.of, hR.intAt_eq h rfl, hgraph]

end Contents

/-! ## Chains of accessors -/

section Chains

variable (hR : Simulation R) {t' : TableType} {x' : T}

include hR

theorem access (h : R t x y) (ha : Access t x t' x') : ∃ y', Access t y t' y' ∧ R t' x' y' := by
  cases ha with
  | @table s _ _ field found =>
    have hrel := hR.table h field
    rw [found] at hrel
    generalize hy : TableLike.table? y s = z at hrel
    cases hrel with
    | some hxy => exact ⟨_, .table field hy, hxy⟩
  | @element s _ xs _ field found mem =>
    have hrel := hR.tables h field
    rw [found] at hrel
    generalize hy : TableLike.tables? y s = z at hrel
    cases hrel with
    | some hall =>
      obtain ⟨y', hmem, hxy⟩ := exists_of_mem_left hall mem
      exact ⟨y', .element field hy hmem, hxy⟩
  | @member s kind u _ _ field known found =>
    rw [hR.byteAt_eq h (field?_kind field)] at known
    have hrel := hR.member h field known
    rw [found] at hrel
    generalize hy : TableLike.table? y s = z at hrel
    cases hrel with
    | some hxy => exact ⟨_, .member field known hy, hxy⟩

theorem reaches (h : R t x y) (hr : Reaches t x t' x') : ∃ y', Reaches t y t' y' ∧ R t' x' y' := by
  induction hr with
  | refl => exact ⟨y, .refl, h⟩
  | tail _ last ih =>
    obtain ⟨y', hr', h'⟩ := ih
    obtain ⟨y'', ha, h''⟩ := hR.access h' last
    exact ⟨y'', hr'.tail ha, h''⟩

end Chains

/-- What simulates is simulated. -/
theorem symm (hR : Simulation R) : Simulation fun t y x => R t x y where
  byte h hf := (hR.byte h hf).symm
  word h hf := (hR.word h hf).symm
  text h hf := (hR.text h hf).symm
  words h hf := (hR.words h hf).symm
  table h hf := rel_swap (hR.table h hf) fun _ _ hxy => hxy
  tables h hf := rel_swap (hR.tables h hf) fun _ _ hall => hall.flip
  member h hf hu := by
    rw [hR.byteAt_eq h (field?_kind hf)] at hu
    exact rel_swap (hR.member h hf hu) fun _ _ hxy => hxy

end Simulation

end NetPack.Schema
