import NetPack.Proofs.Rule.Accepted
import NetPack.Proofs.Text.Replacement

/-!
# Keywords

Some attributes are texts of which only a few words are supported (`OpType.keywords`). Such an attribute is taken
for a word exactly if its bytes are those of the word (`Onnx.Attribute.value?_eq_word_iff`), since malformed bytes
are read with a replacement character and no word has one. So a rule gives a result only if its keywords are
spelled byte for byte (`OpType.keyword_spelled`).
-/

namespace NetPack

open Text (utf8 replacement)

/-- The texts that the rule of an operator type reads, each with the words that it supports. -/
def OpType.keywords : OpType → List (String × List String)
  | .averagePool | .conv | .maxPool => [("auto_pad", ["NOTSET", "SAME_UPPER", "SAME_LOWER"])]
  | .convTranspose => [("auto_pad", ["NOTSET"])]
  | .pad => [("mode", ["constant"])]
  | .resize => [("mode", ["nearest", "linear"]), ("coordinate_transformation_mode", ["half_pixel"]),
      ("keep_aspect_ratio_policy", ["stretch"]), ("nearest_mode", ["prefer_round_floor"])]
  | _ => []

/-! ## Single attributes -/

section

variable {n : Onnx.Node} {name : String} {a : Onnx.Attribute}

theorem Onnx.Attribute.value?_eq_word_iff {w : String} (ha : a.Declares .string) (hw : replacement ∉ w.toList) :
    a.value? = some ⟨.string, w⟩ ↔ a.string = utf8 w.toList := by
  rw [value?_of_string ha, Option.some.injEq, Sigma.mk.injEq, heq_eq_eq, ← Text.readUtf8_eq_iff hw,
    ← String.toList_inj, String.toList_ofList, eq_self, true_and]

/-- The attribute is a text, and its bytes are those of one of the words. -/
def Onnx.Attribute.Spells (a : Onnx.Attribute) (words : List String) : Prop :=
  a.Declares .string ∧ ∃ w ∈ words, a.string = utf8 w.toList

/-- A condition that admits just some words asks for their bytes. -/
theorem Condition.met_words_iff {supported : String → Prop} {words : List String}
    (hsupported : ∀ v, supported v ↔ v ∈ words) (hwords : ∀ w ∈ words, replacement ∉ w.toList)
    (ha : n.first? name = some a) : (optional name .string supported).Met n ↔ a.Spells words := by
  have hmet : (optional name .string supported).Met n ↔ ∃ v, a.value? = some ⟨.string, v⟩ ∧ supported v := by
    unfold Met optional ofKind
    rw [ha]
  rw [hmet]
  constructor
  · rintro ⟨v, hv, hs⟩
    have hdeclared := Onnx.Attribute.declares_of_value? hv
    have hmem := (hsupported v).mp hs
    exact ⟨hdeclared, v, hmem, (Onnx.Attribute.value?_eq_word_iff hdeclared (hwords v hmem)).mp hv⟩
  · rintro ⟨hdeclared, w, hmem, hbytes⟩
    exact ⟨w, (Onnx.Attribute.value?_eq_word_iff hdeclared (hwords w hmem)).mpr hbytes, (hsupported w).mpr hmem⟩

/-- A text of which one word is supported. -/
theorem Condition.met_expected_iff {word : String} (hword : replacement ∉ word.toList)
    (ha : n.first? name = some a) : (expected .string name word).Met n ↔ a.Spells [word] :=
  met_words_iff (fun v => by simp [PlainKind.same]) (by simpa using hword) ha

end

/-! ## Rules -/

open Condition in
/-- The condition of a keyword admits its words and nothing else. -/
theorem OpType.exists_condition (n : Onnx.Node) (constants : ConstantTable) {t : OpType} {name : String}
    {words : List String} (h : (name, words) ∈ t.keywords) : ∃ c ∈ t.conditions n constants, c.name = name ∧
      ∀ a, n.first? name = some a → (c.Met n ↔ a.Spells words) := by
  cases t with
  | averagePool | maxPool | conv =>
    obtain ⟨rfl, rfl⟩ := Prod.mk.inj (List.mem_singleton.mp h)
    refine ⟨optional "auto_pad" .string (· ∈ ["NOTSET", "SAME_UPPER", "SAME_LOWER"]), ?_, rfl, fun a ha => ?_⟩
    · simp [conditions, Condition.pool, Condition.padding]
    · exact met_words_iff (fun v => Iff.rfl) (by decide) ha
  | convTranspose =>
    obtain ⟨rfl, rfl⟩ := Prod.mk.inj (List.mem_singleton.mp h)
    exact ⟨expected .string "auto_pad" "NOTSET", by simp [conditions], rfl, fun a => met_expected_iff (by decide)⟩
  | pad =>
    obtain ⟨rfl, rfl⟩ := Prod.mk.inj (List.mem_singleton.mp h)
    exact ⟨expected .string "mode" "constant", by simp [conditions], rfl, fun a => met_expected_iff (by decide)⟩
  | resize =>
    simp only [keywords, List.mem_cons, List.not_mem_nil, or_false, Prod.mk.injEq] at h
    rcases h with ⟨rfl, rfl⟩ | ⟨rfl, rfl⟩ | ⟨rfl, rfl⟩ | ⟨rfl, rfl⟩
    · exact ⟨optional "mode" .string (· ∈ ["nearest", "linear"]), by simp [conditions], rfl,
        fun a => met_words_iff (fun v => Iff.rfl) (by decide)⟩
    · exact ⟨expected .string "coordinate_transformation_mode" "half_pixel", by simp [conditions], rfl,
        fun a => met_expected_iff (by decide)⟩
    · exact ⟨expected .string "keep_aspect_ratio_policy" "stretch", by simp [conditions], rfl,
        fun a => met_expected_iff (by decide)⟩
    · exact ⟨expected .string "nearest_mode" "prefer_round_floor", by simp [conditions], rfl,
        fun a => met_expected_iff (by decide)⟩
  | _ => cases h

theorem Reading.expect_word_iff {n : Onnx.Node} {name word : String} {a : Onnx.Attribute}
    (ha : n.first? name = some a) (hword : replacement ∉ word.toList) :
    (expect n .string name word).result = .ok () ↔ a.Spells [word] := by
  have hsame : PlainKind.string.same word word := by simp [PlainKind.same]
  have haccepts := (follows_expect n .string name hsame).accepts
  rw [← Condition.met_expected_iff hword ha]
  constructor
  · intro h
    exact (haccepts.sound () h).1 _ List.mem_cons_self
  · intro h
    obtain ⟨u, hu⟩ := haccepts.complete (List.forall_mem_singleton.mpr h)
    exact hu

/-- A text is read as a word exactly if its bytes are those of the word. So an attribute of which one word is
supported has to be spelled byte for byte, and each keyword of a rule has to be one of its words: the rule gives no
result otherwise, and what it asks of the attribute is no more than that. -/
theorem OpType.keyword_spelled :
    (∀ (a : Onnx.Attribute) (w : String), a.Declares .string → replacement ∉ w.toList →
      (a.value? = some ⟨.string, w⟩ ↔ a.string = utf8 w.toList)) ∧
    (∀ (n : Onnx.Node) (name word : String) (a : Onnx.Attribute), n.first? name = some a →
      replacement ∉ word.toList →
      ((Reading.expect n .string name word).result = .ok () ↔
        a.Declares .string ∧ a.string = utf8 word.toList)) ∧
    ∀ (t : OpType) (n : Onnx.Node) (constants : ConstantTable) (name : String) (words : List String),
      (name, words) ∈ t.keywords → ∀ a, n.first? name = some a →
        (∀ attrs, (t.rule n constants).result = .ok attrs → a.Spells words) ∧
        ∃ c ∈ t.conditions n constants, c.name = name ∧ (c.Met n ↔ a.Spells words) := by
  refine ⟨fun a w => Onnx.Attribute.value?_eq_word_iff, fun n name word a ha hword => ?_,
    fun t n constants name words hkeyword a ha => ?_⟩
  · rw [Reading.expect_word_iff ha hword]
    simp [Onnx.Attribute.Spells]
  · obtain ⟨c, hc, hname, hmet⟩ := t.exists_condition n constants hkeyword
    refine ⟨fun attrs hattrs => ?_, c, hc, hname, hmet a ha⟩
    exact (hmet a ha).mp (((t.accepts_rule n constants).sound attrs hattrs).1 c hc)

theorem spelled_linearMode :
    let mode : Onnx.Attribute := { name := "mode", type := 3, string := utf8 "linear".toList }
    (OpType.resize.rule { attributes := [mode] } fun _ => none).result = .ok (.resize .linear) ∧
      mode.Spells ["nearest", "linear"] ∧ mode.value? ≠ some ⟨.string, "nearest"⟩ := by
  intro mode
  have hresult : (OpType.resize.rule { attributes := [mode] } fun _ => none).result = .ok (.resize .linear) := by
    decide +kernel
  refine ⟨hresult, ?_, fun hvalue => ?_⟩
  · exact (OpType.keyword_spelled.2.2 .resize _ _ "mode" _ (by simp [OpType.keywords]) mode rfl).1 _ hresult
  · have hbytes := (OpType.keyword_spelled.1 mode "nearest" rfl (by decide)).mp hvalue
    revert hbytes
    decide

/-- An overlong first letter is no letter. -/
example :
    let mode : Onnx.Attribute := { name := "auto_pad", type := 3, string := 0xc1 :: 0x8e :: utf8 "OTSET".toList }
    (Rule.padding { attributes := [mode] }).result = .error (.unsupportedPadMode "\ufffd\ufffdOTSET") := by
  decide +kernel

end NetPack
