import NetPack.Proofs.Schema.LogicalModel

/-!
# Buffers of other writers

Reading depends on the logical model of a buffer only (`reads_logicalModel`), whoever has written the buffer
and however it is laid out.
-/

namespace NetPack.Schema

open Buffer (Image Table Vtable)

/-- The buffers that can be read are those that lay out a logical model, and a reader sees this model and nothing
else: the content is that of the model, field by field; each table that is reached answers as one of the model;
and each table of the model is reached. -/
theorem reads_logicalModel (b : Image) : (Readable b ↔ ∃ m, Represents b m) ∧
    ∀ m, Represents b m → ModelContent.of (Table.root b) = m.model ∧
      (∀ t x, Reaches .model (Table.root b) t x → ∃ r, Reaches .model m t r ∧ Answers t x r) ∧
      ∀ t r, Reaches .model m t r → ∃ x, Reaches .model (Table.root b) t x ∧ Answers t x r := by
  constructor
  · exact readable_iff_exists_represents
  · intro m h
    exact ⟨h.content_eq, fun t x hr => h.answers hr, fun t r hr => h.answered hr⟩

/-- A buffer with a slot that the format does not have, with vtables in front of their tables and behind them, of
which two are shared and some are short, with fields in any order, and with vectors in front of what refers to
them. -/
def foreignBuffer : Image := #[
  -- The root, the vtable of the model with a sixth slot, and the model.
  20, 0, 0, 0, 16, 0, 12, 0, 0, 0, 4, 0, 0, 0, 0, 0, 0, 0, 8, 0, 16, 0, 0, 0, 8, 0, 0, 0, 7, 0, 0, 0,
  -- The graph, its vtable with two slots, its inputs, and its nodes.
  244, 255, 255, 255, 16, 0, 0, 0, 20, 0, 0, 0, 8, 0, 12, 0, 8, 0, 4, 0, 1, 0, 0, 0, 2, 0, 0, 0,
  4, 0, 0, 0, 28, 0, 0, 0, 60, 0, 0, 0, 32, 0, 0, 0, 40, 0, 0, 0,
  -- A vtable, and the first, the third and the fourth node, which share it.
  10, 0, 12, 0, 0, 0, 8, 0, 4, 0, 0, 0, 12, 0, 0, 0, 60, 0, 0, 0, 9, 0, 0, 0, 24, 0, 0, 0, 48, 0, 0, 0, 2, 0, 0, 0,
  36, 0, 0, 0, 44, 0, 0, 0, 1, 0, 0, 0,
  -- The second node, its vtable with two slots, and its name.
  244, 255, 255, 255, 16, 0, 0, 0, 3, 0, 0, 0, 8, 0, 12, 0, 4, 0, 8, 0, 1, 0, 0, 0, 118, 0, 0, 0,
  -- A table without fields, and its vtable.
  252, 255, 255, 255, 4, 0, 4, 0,
  -- The operator, its vtable, its outputs, and its inputs.
  236, 255, 255, 255, 32, 0, 0, 0, 48, 0, 0, 0, 32, 0, 0, 0, 15, 10, 0, 0,
  14, 0, 18, 0, 16, 0, 17, 0, 8, 0, 12, 0, 4, 0, 0, 0, 1, 0, 0, 0, 7, 0, 0, 0,
  2, 0, 0, 0, 0, 0, 0, 0, 255, 255, 255, 255,
  -- The attributes, and their vtable with two zeros.
  244, 255, 255, 255, 0, 0, 128, 63, 1, 0, 0, 0, 12, 0, 9, 0, 4, 0, 0, 0, 0, 0, 8, 0]

/-- A node of a kind that the format does not have. -/
def unknownNode : Record :=
  .ofList [(Slot.Node.dataType, .byte 9), (Slot.Node.data, .table (Record.ofList []))]

/-- A node without the table that its kind asks for. -/
def missingNode : Record :=
  .ofList [(Slot.Node.dataType, .byte 3), (Slot.Node.name, .text "v")]

/-- A constant without fields. -/
def emptyNode : Record :=
  .ofList [(Slot.Node.dataType, .byte 2), (Slot.Node.data, .table (Record.ofList []))]

/-- Attributes with two fields of four. -/
def foreignAttrs : Record :=
  .ofList [(Slot.Gemm.alpha, .word 0x3f800000), (Slot.Gemm.transposeB, .byte 1)]

def foreignOperator : Record :=
  .ofList [(Slot.Operator.type, .byte 15), (Slot.Operator.attrsType, .byte 10),
    (Slot.Operator.attrs, .table foreignAttrs), (Slot.Operator.inputs, .words [0, 0xffffffff]),
    (Slot.Operator.outputs, .words [7])]

def operatorNode : Record :=
  .ofList [(Slot.Node.dataType, .byte 1), (Slot.Node.data, .table foreignOperator)]

def foreignGraph : Record :=
  .ofList [(Slot.Graph.nodes, .tables [unknownNode, missingNode, emptyNode, operatorNode]),
    (Slot.Graph.inputs, .words [2])]

def foreignModel : Record :=
  .ofList [(Slot.Model.graph, .table foreignGraph), (5, .word 7)]

/-! ### What stands where -/

def modelVtable : Vtable :=
  ⟨4, 12, [0, 4, 0, 0, 0, 8]⟩

def graphVtable : Vtable :=
  ⟨44, 12, [8, 4]⟩

/-- The vtable that three nodes share. -/
def nodeVtable : Vtable :=
  ⟨80, 12, [0, 8, 4]⟩

def missingVtable : Vtable :=
  ⟨140, 12, [4, 8]⟩

def emptyVtable : Vtable :=
  ⟨160, 4, []⟩

def operatorVtable : Vtable :=
  ⟨184, 18, [16, 17, 8, 12, 4]⟩

def attrsVtable : Vtable :=
  ⟨232, 9, [4, 0, 0, 8]⟩

theorem tables_foreignBuffer : ∀ e ∈ [
    (20, modelVtable), (32, graphVtable), (92, nodeVtable), (104, nodeVtable), (116, nodeVtable),
    (128, missingVtable), (156, emptyVtable), (164, operatorVtable), (220, attrsVtable)],
    foreignBuffer.TableAt e.1 e.2 := by
  decide +kernel

theorem references_foreignBuffer : ∀ e ∈ [
    (0, 20), (24, 32), (36, 52), (40, 60), (96, 156), (108, 156), (120, 164), (132, 148), (168, 200), (172, 220),
    (176, 208)], foreignBuffer.Refers e.1 e.2 := by
  decide +kernel

theorem bytes_foreignBuffer : ∀ e ∈ [
    (100, [9]), (112, [2]), (124, [1]), (136, [3]), (180, [15]), (181, [10]), (224, [0, 0, 128, 63]), (228, [1])],
    foreignBuffer.HoldsAt e.1 e.2 := by
  decide +kernel

theorem vectors_foreignBuffer : foreignBuffer.ReferencesAt 60 [92, 128, 104, 116] ∧
    foreignBuffer.TextAt 148 "v" ∧
    ∀ e ∈ [(52, [2]), (200, [7]), (208, [0, 0xffffffff])], foreignBuffer.WordsAt e.1 e.2 := by
  decide +kernel

/-! ### Table by table -/

theorem shows_emptyTable : Shows foreignBuffer .constant 156 (.ofList []) :=
  shows_of_fields (tables_foreignBuffer (156, emptyVtable) (by simp)) ⟨.absent, .absent, .absent⟩

theorem shows_unknownNode : Shows foreignBuffer .node 92 unknownNode := by
  refine shows_of_fields (tables_foreignBuffer (92, nodeVtable) (by simp)) ⟨.absent, ?_, ?_⟩
  · exact .byte (by decide) (bytes_foreignBuffer (100, [9]) (by simp))
  · exact .unknown (by decide) (references_foreignBuffer (96, 156) (by simp)) rfl

theorem shows_missingNode : Shows foreignBuffer .node 128 missingNode := by
  refine shows_of_fields (tables_foreignBuffer (128, missingVtable) (by simp)) ⟨?_, ?_, .absent⟩
  · exact .text (by decide) (references_foreignBuffer (132, 148) (by simp)) vectors_foreignBuffer.2.1
  · exact .byte (by decide) (bytes_foreignBuffer (136, [3]) (by simp))

theorem shows_emptyNode : Shows foreignBuffer .node 104 emptyNode := by
  refine shows_of_fields (tables_foreignBuffer (104, nodeVtable) (by simp)) ⟨.absent, ?_, ?_⟩
  · exact .byte (by decide) (bytes_foreignBuffer (112, [2]) (by simp))
  · exact .member (by decide) (references_foreignBuffer (108, 156) (by simp)) rfl shows_emptyTable

theorem shows_foreignAttrs : Shows foreignBuffer (.attrs .gemm) 220 foreignAttrs := by
  refine shows_of_fields (tables_foreignBuffer (220, attrsVtable) (by simp)) ⟨?_, .absent, .absent, ?_⟩
  · exact .word (by decide) (bytes_foreignBuffer (224, [0, 0, 128, 63]) (by simp))
  · exact .byte (by decide) (bytes_foreignBuffer (228, [1]) (by simp))

theorem shows_foreignOperator : Shows foreignBuffer .operator 164 foreignOperator := by
  have words := vectors_foreignBuffer.2.2
  refine shows_of_fields (tables_foreignBuffer (164, operatorVtable) (by simp)) ⟨?_, ?_, ?_, ?_, ?_⟩
  · exact .byte (by decide) (bytes_foreignBuffer (180, [15]) (by simp))
  · exact .byte (by decide) (bytes_foreignBuffer (181, [10]) (by simp))
  · exact .member (by decide) (references_foreignBuffer (172, 220) (by simp)) rfl shows_foreignAttrs
  · exact .words (by decide) (references_foreignBuffer (176, 208) (by simp)) (words (208, _) (by simp))
  · exact .words (by decide) (references_foreignBuffer (168, 200) (by simp)) (words (200, _) (by simp))

theorem shows_operatorNode : Shows foreignBuffer .node 116 operatorNode := by
  refine shows_of_fields (tables_foreignBuffer (116, nodeVtable) (by simp)) ⟨.absent, ?_, ?_⟩
  · exact .byte (by decide) (bytes_foreignBuffer (124, [1]) (by simp))
  · exact .member (by decide) (references_foreignBuffer (120, 164) (by simp)) rfl shows_foreignOperator

theorem shows_foreignGraph : Shows foreignBuffer .graph 32 foreignGraph := by
  obtain ⟨targets, -, words⟩ := vectors_foreignBuffer
  refine shows_of_fields (tables_foreignBuffer (32, graphVtable) (by simp)) ⟨?_, ?_, .absent⟩
  · refine .tables (by decide) (references_foreignBuffer (40, 60) (by simp)) targets rfl fun k hk _ => ?_
    match k, hk with
    | 0, _ => exact shows_unknownNode
    | 1, _ => exact shows_missingNode
    | 2, _ => exact shows_emptyNode
    | 3, _ => exact shows_operatorNode
  · exact .words (by decide) (references_foreignBuffer (36, 52) (by simp)) (words (52, _) (by simp))

theorem represents_foreignBuffer : Represents foreignBuffer foreignModel := by
  refine ⟨20, references_foreignBuffer (0, 20) (by simp), ?_⟩
  refine shows_of_fields (tables_foreignBuffer (20, modelVtable) (by simp)) ⟨.absent, ?_⟩
  exact .table (by decide) (references_foreignBuffer (24, 32) (by simp)) shows_foreignGraph

/-- The byte without a meaning is kept, and what is missing is absent. -/
theorem reads_foreignBuffer : Readable foreignBuffer ∧ Represents foreignBuffer foreignModel ∧
    ModelContent.of (Table.root foreignBuffer) = ⟨0, some ⟨some [⟨none, 9, none, none, false⟩,
      ⟨some "v", 3, none, none, false⟩, ⟨none, 2, none, some ⟨none, 0, none, none⟩, false⟩,
      ⟨none, 1, some ⟨15, 10, some (.gemm ⟨0x3f800000⟩ ⟨0⟩ false true), some [0, 0xffffffff], some [7]⟩, none,
        false⟩], some [2], none⟩⟩ := by
  obtain ⟨hreadable, hreads⟩ := reads_logicalModel foreignBuffer
  have hcontent := (hreads foreignModel represents_foreignBuffer).1
  refine ⟨hreadable.mpr ⟨foreignModel, represents_foreignBuffer⟩, represents_foreignBuffer, ?_⟩
  rw [hcontent]
  rfl

end NetPack.Schema
