import NetPack.Proofs.Schema.NetworkContent
import NetPack.Proofs.Schema.Rows
import NetPack.Proofs.Text.Utf8

/-!
# What a network is stored as

The objects of a network are tables that conform to the format and have the content of what they store
(`Stores`). There is one lemma for each kind of table, from the scalars up to the model; each reads its
rows one by one.
-/

namespace NetPack.Schema

open Buffer (Entry Fields Object Objects TableLike)

/-! ## Values of rows -/

section Values

variable {t : TableType} {slots : List Nat} {rows : List Row} {i s : Nat}

theorem Rows.byteAt_eq (h : Rows t slots rows) {v : UInt8} (hs : slots[i]? = some s)
    (hr : rows[i]? = some (byteField s v)) : byteAt (Fields.ofList rows.flatten) s = v := by
  simp only [byteAt, TableLike.byte?, h.entry?_eq hs hr, byteField]
  by_cases hv : v = 0
  · simp [hv]
  · simp [hv]

theorem Rows.boolAt_eq (h : Rows t slots rows) {v : Bool} (hs : slots[i]? = some s)
    (hr : rows[i]? = some (boolField s v)) : boolAt (Fields.ofList rows.flatten) s = v := by
  rw [boolAt, h.byteAt_eq hs hr]
  cases v <;> rfl

theorem Rows.wordAt_eq (h : Rows t slots rows) {v : UInt32} (hs : slots[i]? = some s)
    (hr : rows[i]? = some (wordField s v)) : wordAt (Fields.ofList rows.flatten) s = v := by
  simp only [wordAt, TableLike.word?, h.entry?_eq hs hr, wordField]
  by_cases hv : v = 0
  · simp [hv]
  · simp [hv]

theorem Rows.intAt_eq (h : Rows t slots rows) {v : Int32} (hs : slots[i]? = some s)
    (hr : rows[i]? = some (intField s v)) : intAt (Fields.ofList rows.flatten) s = v := by
  rw [intAt, h.wordAt_eq hs hr, Int32.toInt32_toUInt32]

theorem Rows.floatAt_eq (h : Rows t slots rows) {v : Single} (hs : slots[i]? = some s)
    (hr : rows[i]? = some (floatField s v)) :
    floatAt (Fields.ofList rows.flatten) s = v.settled := by
  simp only [floatAt, wordAt, TableLike.word?, h.entry?_eq hs hr, floatField, Single.settled]
  by_cases hv : v.isZero
  · simp [hv, Single.zero]
  · simp [hv]

theorem Rows.child_eq (h : Rows t slots rows) {o : Object} (hs : slots[i]? = some s)
    (hr : rows[i]? = some (childField s o)) :
    Fields.entry? (Fields.ofList rows.flatten) s = some (.child o) := by
  rw [h.entry?_eq hs hr, childField, List.lookup_cons_self]

theorem Rows.words?_eq (h : Rows t slots rows) {ws : List UInt32} (hs : slots[i]? = some s)
    (hr : rows[i]? = some (childField s (.words ws))) :
    TableLike.words? (Fields.ofList rows.flatten) s = some ws := by
  simp only [TableLike.words?, h.child_eq hs hr]

theorem Rows.words?_absent (h : Rows t slots rows) (hs : slots[i]? = some s)
    (hr : rows[i]? = some []) : TableLike.words? (Fields.ofList rows.flatten) s = none := by
  simp only [TableLike.words?, h.entry?_eq hs hr, List.lookup_nil]

theorem Rows.unsignedsAt?_eq (h : Rows t slots rows) {vs : List UInt32} (hs : slots[i]? = some s)
    (hr : rows[i]? = some (childField s (unsignedList vs))) :
    unsignedsAt? (Fields.ofList rows.flatten) s = some vs :=
  h.words?_eq hs hr

theorem Rows.intsAt?_eq (h : Rows t slots rows) {vs : List Int32} (hs : slots[i]? = some s)
    (hr : rows[i]? = some (childField s (intList vs))) :
    intsAt? (Fields.ofList rows.flatten) s = some vs := by
  rw [intsAt?, h.words?_eq hs hr, Option.map_some, toInt32_words]

theorem Rows.floatsAt?_eq (h : Rows t slots rows) {vs : List Single} (hs : slots[i]? = some s)
    (hr : rows[i]? = some (childField s (floatList vs))) :
    floatsAt? (Fields.ofList rows.flatten) s = some vs := by
  rw [floatsAt?, h.words?_eq hs hr, Option.map_some, single_words]

theorem Rows.pads_eq (h : Rows t slots rows) {p : Padding} (hs : slots[i]? = some s)
    (hr : rows[i]? = some (padsField s p)) :
    unsignedsAt? (Fields.ofList rows.flatten) s = p.content? := by
  cases p with
  | same => exact h.words?_absent hs hr
  | fixed top left bottom right => exact h.words?_eq hs hr

theorem Rows.nonempty_unsigneds_eq (h : Rows t slots rows) {vs : List UInt32}
    (hs : slots[i]? = some s) (hr : rows[i]? = some (nonemptyField s unsignedList vs)) :
    unsignedsAt? (Fields.ofList rows.flatten) s = nonempty? vs := by
  cases vs with
  | nil => exact h.words?_absent hs hr
  | cons v r => exact h.unsignedsAt?_eq hs hr

theorem Rows.nonempty_ints_eq (h : Rows t slots rows) {vs : List Int32}
    (hs : slots[i]? = some s) (hr : rows[i]? = some (nonemptyField s intList vs)) :
    intsAt? (Fields.ofList rows.flatten) s = nonempty? vs := by
  cases vs with
  | nil =>
    rw [intsAt?, h.words?_absent hs hr]
    rfl
  | cons v r => exact h.intsAt?_eq hs hr

theorem Rows.table?_eq (h : Rows t slots rows) {o : Object} {fs : Fields} (hs : slots[i]? = some s)
    (hr : rows[i]? = some (childField s o)) (ho : o = .table fs) :
    TableLike.table? (Fields.ofList rows.flatten) s = some fs := by
  simp only [TableLike.table?, h.child_eq hs hr, ho]

theorem Rows.tables?_eq (h : Rows t slots rows) {os : Objects} (hs : slots[i]? = some s)
    (hr : rows[i]? = some (childField s (.tables os))) :
    TableLike.tables? (Fields.ofList rows.flatten) s = some os.tables := by
  simp only [TableLike.tables?, h.child_eq hs hr]

theorem Rows.textAt?_eq (h : Rows t slots rows) {name : String} (hs : slots[i]? = some s)
    (hr : rows[i]? = some (childField s (.text (Text.utf8 name.toList)))) :
    textAt? (Fields.ofList rows.flatten) s = some name := by
  simp only [textAt?, TableLike.text?, h.child_eq hs hr, Option.map_some, Text.readUtf8_utf8,
    String.ofList_toList]

end Values

/-! ## Unions -/

def FieldType.isMember : FieldType → Bool
  | member _ _ => true
  | _ => false

theorem unionsConform_of_none {t : TableType} {fs : Fields}
    (hnone : ∀ p ∈ t.fields, p.2.isMember = false) : UnionsConform t fs := by
  intro s kind u hf
  cases hnone _ (Buffer.mem_of_lookup hf)

theorem unionsConform_of_one {t : TableType} {fs : Fields} {s k : Nat} {u : UnionType}
    (hone : ∀ p ∈ t.fields, p = (s, .member k u) ∨ p.2.isMember = false)
    (h : (byteAt fs k = 0 ∧ fs.entry? s = none) ∨
      ∃ t' fs', u.member? (byteAt fs k) = some t' ∧ fs.entry? s = some (.child (.table fs')) ∧
        Conforms t' fs') : UnionsConform t fs := by
  intro s' kind' u' hf
  rcases hone _ (Buffer.mem_of_lookup hf) with heq | hfalse
  · cases heq
    exact h
  · cases hfalse

/-- A row for the byte and a row for the table make a union conform. -/
theorem Rows.union {t t' : TableType} {slots : List Nat} {rows : List Row} (h : Rows t slots rows)
    {s kind : Nat} {u : UnionType} {v : UInt8} {o : Object} {fs : Fields} {i k : Nat}
    (hone : ∀ p ∈ t.fields, p = (s, .member kind u) ∨ p.2.isMember = false)
    (hk : slots[k]? = some kind) (hv : rows[k]? = some (byteField kind v)) (hs : slots[i]? = some s)
    (hr : rows[i]? = some (childField s o)) (hu : u.member? v = some t') (ho : o = .table fs)
    (hc : Conforms t' fs) : UnionsConform t (Fields.ofList rows.flatten) := by
  refine unionsConform_of_one hone (.inr ⟨t', fs, ?_, ?_, hc⟩)
  · rw [h.byteAt_eq hk hv, hu]
  · rw [h.child_eq hs hr, ho]

/-! ## Objects -/

/-- The object is a table of a kind, it conforms to the format, and it has a property. -/
def Stores (t : TableType) (o : Object) (P : Fields → Prop) : Prop :=
  ∃ fs, o = .table fs ∧ Conforms t fs ∧ P fs

theorem Stores.of_rows {t : TableType} {o : Object} {P : Fields → Prop} {slots : List Nat}
    {r : List Row} (ho : o = table r) (h : Rows t slots r)
    (hu : Rows t slots r → UnionsConform t (Fields.ofList r.flatten))
    (hP : Rows t slots r → P (Fields.ofList r.flatten)) : Stores t o P :=
  ⟨_, ho, h.conforms (hu h), hP h⟩

/-- The table of a kind without a union. -/
theorem Stores.of_plain_rows {t : TableType} {o : Object} {P : Fields → Prop} {slots : List Nat}
    {rows : List Row} (ho : o = table rows) (hnone : ∀ p ∈ t.fields, p.2.isMember = false)
    (h : Rows t slots rows) (hP : Rows t slots rows → P (Fields.ofList rows.flatten)) :
    Stores t o P :=
  .of_rows ho h (fun _ => unionsConform_of_none hnone) hP

/-! ## Scalars and attributes -/

theorem int_stored (v : Int32) :
    Stores (.scalar .int) (scalarObject (.int v)) fun fs => intAt fs Slot.Scalar.value = v :=
  .of_plain_rows rfl (by decide) ⟨by decide, .cons (intField_row rfl _) .nil⟩
    fun h => h.intAt_eq (i := 0) rfl rfl

theorem float_stored (v : Single) :
    Stores (.scalar .float) (scalarObject (.float v)) fun fs =>
      floatAt fs Slot.Scalar.value = v.settled :=
  .of_plain_rows rfl (by decide) ⟨by decide, .cons (floatField_row rfl _) .nil⟩
    fun h => h.floatAt_eq (i := 0) rfl rfl

theorem pool_stored {t : AttrsTable} (ht : t = .averagePool ∨ t = .maxPool) (p : PoolAttrs) :
    Stores (.attrs t) (poolObject p) fun fs => PoolContent.of fs = p.content := by
  rcases ht with rfl | rfl
  all_goals
    refine .of_plain_rows rfl (by decide) ⟨by decide, .cons (.words rfl _) <|
      .cons (byteField_row rfl _) <| .cons (padsField_row rfl _) <| .cons (.words rfl _) .nil⟩
      fun h => ?_
    rw [PoolContent.of, h.unsignedsAt?_eq (i := 0) rfl rfl, h.byteAt_eq (i := 1) rfl rfl,
      h.pads_eq (i := 2) rfl rfl, h.unsignedsAt?_eq (i := 3) rfl rfl]
    rfl

/-- The table of a scalar holds its value. -/
theorem scalar_stored (v : Scalar) :
    Stores (.scalar (scalarTable v)) (scalarObject v) fun fs =>
      match v with
      | .int v => intAt fs Slot.Scalar.value = v
      | .float v => floatAt fs Slot.Scalar.value = v.settled := by
  cases v with
  | int v => exact int_stored v
  | float v => exact float_stored v

theorem constantOfShape_stored (v : Scalar) :
    Stores (.attrs .constantOfShape)
      (table [byteField Slot.ConstantOfShape.valueType (scalarTable v).byte,
        childField Slot.ConstantOfShape.value (scalarObject v)])
      fun fs => AttrsContent.of fs .constantOfShape = v.content := by
  obtain ⟨fs, ho, hc, hv⟩ := scalar_stored v
  have hkind : UnionType.scalar.member? (scalarTable v).byte = some (.scalar (scalarTable v)) := by
    rw [UnionType.member?, ScalarTable.ofByte?_byte, Option.map_some]
  refine .of_rows rfl
    ⟨by decide, .cons (byteField_row rfl _) <| .cons (memberField_row rfl ho) .nil⟩
    (fun h => h.union (k := 0) (i := 1) (by decide) rfl rfl rfl rfl hkind ho hc) fun h => ?_
  simp only [AttrsContent.of, h.byteAt_eq (i := 0) rfl rfl, ScalarTable.ofByte?_byte, member?,
    h.table?_eq (i := 1) rfl rfl ho]
  cases v with
  | int v =>
    simp only [scalarTable, if_true, Option.map_some, hv]
    rfl
  | float v =>
    simp only [scalarTable, if_true, Option.map_some, hv]
    rfl

/-- The attributes of a kind are stored in its table. -/
def AttrsStored (a : Attrs) (t : AttrsTable) : Prop :=
  ∃ o, attrsObject? a = some o ∧
    Stores (.attrs t) o fun fs => a.content? = some (AttrsContent.of fs t)

/-- The table of a kind without a union, with a row for each of its fields. -/
theorem AttrsStored.of_rows {a : Attrs} {t : AttrsTable} {r : List Row} (hp : t ≠ .constantOfShape)
    (ho : attrsObject? a = some (table r))
    (hr : List.Forall₂ (RowOf (.attrs t)) (t.fields.map (·.1)) r)
    (hP : Rows (.attrs t) (t.fields.map (·.1)) r →
      a.content? = some (AttrsContent.of (Fields.ofList r.flatten) t)) : AttrsStored a t := by
  have hnone : ∀ p ∈ t.fields, p.2.isMember = false := by
    cases t with
    | constantOfShape => exact absurd rfl hp
    | _ => decide
  exact ⟨_, ho, .of_plain_rows rfl hnone ⟨TableType.nodup_slots (.attrs t), hr⟩ hP⟩

theorem attrs_stored {a : Attrs} {t : AttrsTable} (ht : AttrsTable.ofAttrs? a = some t) :
    AttrsStored a t := by
  cases a with
  | none => cases ht
  | averagePool p =>
    cases ht
    obtain ⟨fs, ho, hc, hp⟩ := pool_stored (.inl rfl) p
    exact ⟨_, rfl, fs, ho, hc, congrArg (fun c => some (AttrsContent.averagePool c)) hp.symm⟩
  | maxPool p =>
    cases ht
    obtain ⟨fs, ho, hc, hp⟩ := pool_stored (.inr rfl) p
    exact ⟨_, rfl, fs, ho, hc, congrArg (fun c => some (AttrsContent.maxPool c)) hp.symm⟩
  | constantOfShape value =>
    cases ht
    obtain ⟨fs, ho, hc, hv⟩ := constantOfShape_stored value
    exact ⟨_, rfl, fs, ho, hc, congrArg some hv.symm⟩
  | batchNormalization epsilon =>
    cases ht
    refine .of_rows nofun rfl (.cons (floatField_row rfl _) .nil) fun h => ?_
    rw [AttrsContent.of, h.floatAt_eq (i := 0) rfl rfl]
    rfl
  | cast target =>
    cases ht
    refine .of_rows nofun rfl (.cons (byteField_row rfl _) .nil) fun h => ?_
    rw [AttrsContent.of, h.byteAt_eq (i := 0) rfl rfl]
    rfl
  | clip min max =>
    cases ht
    refine .of_rows nofun rfl
      (.cons (floatField_row rfl _) <| .cons (floatField_row rfl _) .nil) fun h => ?_
    rw [AttrsContent.of, h.floatAt_eq (i := 0) rfl rfl, h.floatAt_eq (i := 1) rfl rfl]
    rfl
  | concat dim =>
    cases ht
    refine .of_rows nofun rfl (.cons (intField_row rfl _) .nil) fun h => ?_
    rw [AttrsContent.of, h.intAt_eq (i := 0) rfl rfl]
    rfl
  | conv groups padding stride =>
    cases ht
    refine .of_rows nofun rfl (.cons (wordField_row rfl _) <|
      .cons (byteField_row rfl _) <| .cons (padsField_row rfl _) <|
      .cons (wordField_row rfl _) .nil) fun h => ?_
    rw [AttrsContent.of, ConvContent.of, h.wordAt_eq (i := 0) rfl rfl, h.byteAt_eq (i := 1) rfl rfl,
      h.pads_eq (i := 2) rfl rfl, h.wordAt_eq (i := 3) rfl rfl]
    rfl
  | convTranspose stride =>
    cases ht
    refine .of_rows nofun rfl (.cons (wordField_row rfl _) .nil) fun h => ?_
    rw [AttrsContent.of, h.wordAt_eq (i := 0) rfl rfl]
    rfl
  | gather axis =>
    cases ht
    refine .of_rows nofun rfl (.cons (intField_row rfl _) .nil) fun h => ?_
    rw [AttrsContent.of, h.intAt_eq (i := 0) rfl rfl]
    rfl
  | gemm alpha beta transposeA transposeB =>
    cases ht
    refine .of_rows nofun rfl (.cons (floatField_row rfl _) <|
      .cons (floatField_row rfl _) <| .cons (boolField_row rfl _) <|
      .cons (boolField_row rfl _) .nil) fun h => ?_
    rw [AttrsContent.of, h.floatAt_eq (i := 0) rfl rfl, h.floatAt_eq (i := 1) rfl rfl,
      h.boolAt_eq (i := 2) rfl rfl, h.boolAt_eq (i := 3) rfl rfl]
    rfl
  | leakyRelu alpha =>
    cases ht
    refine .of_rows nofun rfl (.cons (floatField_row rfl _) .nil) fun h => ?_
    rw [AttrsContent.of, h.floatAt_eq (i := 0) rfl rfl]
    rfl
  | reduceMean axes keepDims =>
    cases ht
    refine .of_rows nofun rfl (.cons (nonemptyField_row rfl (fun vs => ⟨_, rfl⟩) _) <|
      .cons (boolField_row rfl _) .nil) fun h => ?_
    rw [AttrsContent.of, h.nonempty_ints_eq (i := 0) rfl rfl, h.boolAt_eq (i := 1) rfl rfl]
    cases axes <;> rfl
  | resize mode =>
    cases ht
    refine .of_rows nofun rfl (.cons (byteField_row rfl _) .nil) fun h => ?_
    rw [AttrsContent.of, h.byteAt_eq (i := 0) rfl rfl]
    rfl
  | softmax axis =>
    cases ht
    refine .of_rows nofun rfl (.cons (intField_row rfl _) .nil) fun h => ?_
    rw [AttrsContent.of, h.intAt_eq (i := 0) rfl rfl]
    rfl
  | split axis sizes =>
    cases ht
    refine .of_rows nofun rfl (.cons (intField_row rfl _) <|
      .cons (nonemptyField_row rfl (fun vs => ⟨_, rfl⟩) _) .nil) fun h => ?_
    rw [AttrsContent.of, h.intAt_eq (i := 0) rfl rfl, h.nonempty_unsigneds_eq (i := 1) rfl rfl]
    rfl
  | squeeze axes =>
    cases ht
    refine .of_rows nofun rfl
      (.cons (nonemptyField_row rfl (fun vs => ⟨_, rfl⟩) _) .nil) fun h => ?_
    rw [AttrsContent.of, h.nonempty_ints_eq (i := 0) rfl rfl]
    rfl
  | transpose perm =>
    cases ht
    refine .of_rows nofun rfl
      (.cons (nonemptyField_row rfl (fun vs => ⟨_, rfl⟩) _) .nil) fun h => ?_
    rw [AttrsContent.of, h.nonempty_unsigneds_eq (i := 0) rfl rfl]
    rfl
  | unsqueeze axes =>
    cases ht
    refine .of_rows nofun rfl (.cons (.words rfl _) .nil) fun h => ?_
    rw [AttrsContent.of, h.intsAt?_eq (i := 0) rfl rfl]
    rfl

/-! ## Nodes -/

theorem operator_stored (o : Operator) :
    Stores .operator (operatorObject o) fun fs => OperatorContent.of fs = o.content := by
  obtain ⟨name, opType, a, inputs, outputs⟩ := o
  cases ht : AttrsTable.ofAttrs? a with
  | none =>
    cases a with
    | none =>
      refine .of_rows rfl ⟨by decide, .cons (byteField_row rfl _) <| .cons (byteField_row rfl _) <|
        .cons (.absent (s := Slot.Operator.attrs) rfl) <| .cons (.words rfl _) <|
        .cons (.words rfl _) .nil⟩
        (fun h => unionsConform_of_one (s := Slot.Operator.attrs) (k := Slot.Operator.attrsType)
          (u := .attrs) (by decide)
          (.inl ⟨h.byteAt_eq (i := 1) rfl rfl, h.entry?_eq (i := 2) rfl rfl⟩)) fun h => ?_
      simp only [OperatorContent.of, h.byteAt_eq (i := 0) rfl rfl, h.byteAt_eq (i := 1) rfl rfl,
        h.unsignedsAt?_eq (i := 3) rfl rfl, h.unsignedsAt?_eq (i := 4) rfl rfl]
      rfl
    | _ => cases ht
  | some t =>
    obtain ⟨attrs, hattrs, fs, ho, hc, hv⟩ := attrs_stored ht
    have hbyte : attrsByte a = t.byte := by rw [attrsByte, ht]
    refine .of_rows (r := [byteField Slot.Operator.type (UInt8.ofNat opType.code),
      byteField Slot.Operator.attrsType t.byte, childField Slot.Operator.attrs attrs,
      childField Slot.Operator.inputs (unsignedList inputs),
      childField Slot.Operator.outputs (unsignedList outputs)])
      (by rw [operatorObject, hattrs, hbyte]; rfl)
      ⟨by decide, .cons (byteField_row rfl _) <| .cons (byteField_row rfl _) <|
        .cons (memberField_row rfl ho) <| .cons (.words rfl _) <| .cons (.words rfl _) .nil⟩
      (fun h => h.union (u := .attrs) (k := 1) (i := 2) (by decide) rfl rfl rfl rfl
        (by rw [UnionType.member?, t.ofByte?_byte, Option.map_some]) ho hc) fun h => ?_
    simp only [OperatorContent.of, h.byteAt_eq (i := 0) rfl rfl, h.byteAt_eq (i := 1) rfl rfl,
      h.unsignedsAt?_eq (i := 3) rfl rfl, h.unsignedsAt?_eq (i := 4) rfl rfl, t.ofByte?_byte,
      h.table?_eq (i := 2) rfl rfl ho, Option.bind_eq_bind, Option.bind_some, Operator.content, hv,
      hbyte]

theorem floatData_stored (vs : List Single) :
    Stores (.elements .float) (dataObject (.float vs)) fun fs =>
      floatsAt? fs Slot.Data.data = some vs :=
  .of_plain_rows rfl (by decide) ⟨by decide, .cons (.words rfl _) .nil⟩
    fun h => h.floatsAt?_eq (i := 0) rfl rfl

theorem intData_stored (vs : List Int32) :
    Stores (.elements .int) (dataObject (.int vs)) fun fs =>
      intsAt? fs Slot.Data.data = some vs :=
  .of_plain_rows rfl (by decide) ⟨by decide, .cons (.words rfl _) .nil⟩
    fun h => h.intsAt?_eq (i := 0) rfl rfl

/-- The table of the elements of a constant holds their list. -/
theorem elements_stored (e : Elements) :
    Stores (.elements (dataTable e)) (dataObject e) fun fs =>
      match e with
      | .float vs => floatsAt? fs Slot.Data.data = some vs
      | .int vs => intsAt? fs Slot.Data.data = some vs := by
  cases e with
  | float vs => exact floatData_stored vs
  | int vs => exact intData_stored vs

theorem constant_stored (c : Constant) :
    Stores .constant (constantObject c) fun fs => ConstantContent.of fs = c.content := by
  obtain ⟨name, shape, elements, hcount⟩ := c
  obtain ⟨fs, ho, hc, hv⟩ := elements_stored elements
  have hkind : UnionType.elements.member? (dataTable elements).byte
      = some (.elements (dataTable elements)) := by
    rw [UnionType.member?, DataTable.ofByte?_byte, Option.map_some]
  refine .of_rows rfl ⟨by decide, .cons (.words rfl _) <| .cons (byteField_row rfl _) <|
    .cons (memberField_row rfl ho) .nil⟩
    (fun h => h.union (k := 1) (i := 2) (by decide) rfl rfl rfl rfl hkind ho hc) fun h => ?_
  simp only [ConstantContent.of, h.unsignedsAt?_eq (i := 0) rfl rfl, h.byteAt_eq (i := 1) rfl rfl,
    DataTable.ofByte?_byte, member?, h.table?_eq (i := 2) rfl rfl ho]
  cases elements with
  | float vs =>
    simp only [dataTable, if_true, Option.map_some, hv]
    rfl
  | int vs =>
    simp only [dataTable, if_true, Option.map_some, hv]
    rfl

theorem value_stored : Stores .value (table []) fun _ => True :=
  .of_plain_rows rfl (by decide) ⟨by decide, .nil⟩ fun _ => trivial

/-- What is particular to a node is stored in the table of its kind. -/
theorem data_stored (n : Node) :
    Stores (nodeTable n).tableType (nodeData n) fun fs =>
      match n with
      | .operator o => OperatorContent.of fs = o.content
      | .constant c => ConstantContent.of fs = c.content
      | .value _ => True := by
  cases n with
  | operator o => exact operator_stored o
  | constant c => exact constant_stored c
  | value name => exact value_stored

theorem node_stored (n : Node) :
    Stores .node (nodeObject n) fun fs => NodeContent.of fs = n.content := by
  obtain ⟨fs, ho, hc, hv⟩ := data_stored n
  have hkind : UnionType.node.member? (nodeTable n).byte = some (nodeTable n).tableType := by
    rw [UnionType.member?, NodeTable.ofByte?_byte, Option.map_some]
  refine .of_rows rfl ⟨by decide, .cons (byteField_row rfl _) <| .cons (memberField_row rfl ho) <|
    .cons (.text rfl _) .nil⟩
    (fun h => h.union (k := 0) (i := 1) (by decide) rfl rfl rfl rfl hkind ho hc) fun h => ?_
  simp only [NodeContent.of, h.byteAt_eq (i := 0) rfl rfl, NodeTable.ofByte?_byte, member?,
    h.table?_eq (i := 1) rfl rfl ho, h.textAt?_eq (i := 2) rfl rfl]
  cases n with
  | operator o =>
    simp only [nodeTable, if_true, Option.map_some, hv]
    rfl
  | constant c =>
    simp only [nodeTable, if_true, Option.map_some, hv]
    rfl
  | value name => rfl

/-! ## Graph and model -/

theorem nodes_stored (ns : List Node) :
    ∃ fss : List Fields, ns.map nodeObject = fss.map Object.table ∧ (∀ fs ∈ fss, Conforms .node fs) ∧
      fss.map NodeContent.of = ns.map Node.content := by
  induction ns with
  | nil => exact ⟨[], rfl, fun _ h => absurd h List.not_mem_nil, rfl⟩
  | cons n r ih =>
    obtain ⟨fs, ho, hc, hv⟩ := node_stored n
    obtain ⟨fss, hos, hcs, hvs⟩ := ih
    refine ⟨fs :: fss, ?_, ?_, ?_⟩
    · rw [List.map_cons, List.map_cons, ho, hos]
    · exact List.forall_mem_cons.mpr ⟨hc, hcs⟩
    · rw [List.map_cons, List.map_cons, hv, hvs]

theorem tables_ofList (fss : List Fields) : (Objects.ofList (fss.map Object.table)).tables = fss := by
  induction fss with
  | nil => rfl
  | cons fs r ih => rw [List.map_cons, Objects.ofList, Objects.tables, ih]

theorem graph_stored (n : Network) :
    Stores .graph n.graphObject fun fs =>
      GraphContent.of fs = ⟨some (n.nodes.map Node.content), some n.inputs, some n.outputs⟩ := by
  obtain ⟨fss, hos, hcs, hvs⟩ := nodes_stored n.nodes
  refine .of_rows (r := [
    childField Slot.Graph.nodes (.tables (Objects.ofList (fss.map Object.table))),
    childField Slot.Graph.inputs (unsignedList n.inputs),
    childField Slot.Graph.outputs (unsignedList n.outputs)]) (by rw [Network.graphObject, hos])
    ⟨by decide, .cons (.tables rfl ?_ ?_) <| .cons (.words rfl _) <| .cons (.words rfl _) .nil⟩
    (fun _ => unionsConform_of_none (by decide)) fun h => ?_
  · rw [Buffer.Objects.toList_ofList, tables_ofList]
  · rw [tables_ofList]
    exact hcs
  · rw [GraphContent.of, h.tables?_eq (i := 0) rfl rfl, h.unsignedsAt?_eq (i := 1) rfl rfl,
      h.unsignedsAt?_eq (i := 2) rfl rfl, Option.map_some, tables_ofList, hvs]

/-- A network is stored as a table that conforms to the format and has the content of the network. -/
theorem model_stored (n : Network) :
    Stores .model n.toObject fun fs => ModelContent.of fs = n.content := by
  obtain ⟨fs, ho, hc, hv⟩ := graph_stored n
  refine .of_rows (r := [intField Slot.Model.schemaVersion version,
    childField Slot.Model.graph (.table fs)]) (by rw [Network.toObject, ho])
    ⟨by decide, .cons (intField_row rfl _) <| .cons (.table rfl hc) .nil⟩
    (fun _ => unionsConform_of_none (by decide)) fun h => ?_
  rw [ModelContent.of, h.intAt_eq (i := 0) rfl rfl, h.table?_eq (i := 1) rfl rfl rfl,
    Option.map_some, hv]
  rfl

end NetPack.Schema
