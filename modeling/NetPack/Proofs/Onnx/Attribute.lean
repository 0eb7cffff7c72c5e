import NetPack.Onnx.Attribute

/-!
# What attributes hold

An attribute holds a value of a kind only if it is declared to be of that kind (`Attribute.declares_of_value?`).
Asked for a value of another kind, it fails with a mismatch that names it and says what it was declared to be
(`Attribute.read_of_ne`). Of several attributes of a name the first one counts (`Node.first?`).
-/

namespace NetPack

/-- The declared type of the attributes of a kind. -/
def Kind.attributeType : Kind → Onnx.AttributeType
  | int => .int
  | float => .float
  | string => .string
  | ints => .ints
  | tensor => .tensor

namespace Onnx

/-! ## Declared types -/

namespace Attribute

/-- The declared type is that of a kind. -/
def Declares (a : Attribute) (k : Kind) : Prop :=
  AttributeType.ofNumber? a.type.toInt = some k.attributeType

instance (a : Attribute) (k : Kind) : Decidable (a.Declares k) :=
  inferInstanceAs (Decidable (_ = _))

theorem declares_of_value? {a : Attribute} {v : Value} (h : a.value? = some v) : a.Declares v.1 := by
  unfold value? at h
  unfold Declares
  cases htype : AttributeType.ofNumber? a.type.toInt with
  | none =>
    rw [htype] at h
    cases h
  | some type =>
    rw [htype] at h
    cases type with
    | int | float | string | ints =>
      cases h
      rfl
    | tensor =>
      obtain ⟨t, -, rfl⟩ := Option.map_eq_some_iff.mp h
      rfl
    | _ => cases h

theorem value?_of_string {a : Attribute} (h : a.Declares .string) :
    a.value? = some ⟨.string, String.ofList (Text.readUtf8 a.string)⟩ := by
  have htype : AttributeType.ofNumber? a.type.toInt = some .string := h
  rw [value?, htype]

theorem typeWord_of_declares {a : Attribute} {k : Kind} (h : a.Declares k) : typeWord a.type = k.word := by
  have hword : k.attributeType.word = k.word := by
    cases k <;> rfl
  rw [typeWord, h]
  exact hword

end Attribute

/-! ## Reading -/

theorem Value.as?_eq_some_iff {v : Value} {k : Kind} {x : k.Value} : v.as? k = some x ↔ v = ⟨k, x⟩ := by
  obtain ⟨k', x'⟩ := v
  unfold as?
  by_cases h : k' = k
  · subst h
    simp
  · rw [dif_neg h]
    constructor
    · intro hnone
      cases hnone
    · rintro ⟨⟩
      exact absurd rfl h

theorem Attribute.read_eq_ok_iff {a : Attribute} {k : Kind} {x : k.Value} :
    a.read k = .ok x ↔ a.value? = some ⟨k, x⟩ := by
  unfold read
  cases hvalue : a.value? with
  | none =>
    constructor
    · intro h
      cases h
    · intro h
      cases h
  | some v =>
    rw [Option.some.injEq, ← Value.as?_eq_some_iff]
    dsimp only
    cases v.as? k with
    | none =>
      constructor
      · intro h
        cases h
      · intro h
        cases h
    | some y => rw [Except.ok.injEq, Option.some.injEq]

/-- An attribute without a value of the kind that is asked for is refused with what it was declared to be. -/
theorem Attribute.read_of_ne {a : Attribute} {k : Kind} (h : ∀ x : k.Value, a.value? ≠ some ⟨k, x⟩) :
    a.read k = .error (.typeMismatch a.name k (typeWord a.type)) := by
  unfold read
  cases hvalue : a.value? with
  | none => rfl
  | some v =>
    have hkind : v.as? k = none := by
      cases hx : v.as? k with
      | none => rfl
      | some x => exact absurd (hvalue.trans (congrArg some (Value.as?_eq_some_iff.mp hx))) (h x)
    dsimp only
    rw [hkind, typeWord_of_declares (declares_of_value? hvalue)]

/-! ## The first attribute of a name -/

namespace Node

def first? (n : Node) (name : String) : Option Attribute :=
  n.attributes.find? fun a => a.name == name

/-- The value of the first attribute of a name, if it is of a kind. -/
def value? (n : Node) (k : Kind) (name : String) : Option k.Value :=
  (n.first? name).bind fun a => a.value?.bind fun v => v.as? k

/-- The value of the first attribute of a name, or the default. -/
def valueD (n : Node) (k : Kind) (name : String) (default : k.Value) : k.Value :=
  (n.value? k name).getD default

variable {n : Node} {k : Kind} {name : String}

theorem attribute?_eq_none_iff : n.attribute? k name = .ok none ↔ n.first? name = none := by
  unfold attribute? first?
  cases n.attributes.find? fun a => a.name == name with
  | none => exact ⟨fun _ => rfl, fun _ => rfl⟩
  | some a =>
    dsimp only
    cases a.read k with
    | error e => exact ⟨nofun, nofun⟩
    | ok x => exact ⟨nofun, nofun⟩

theorem attribute?_eq_some_iff {x : k.Value} : n.attribute? k name = .ok (some x) ↔
    ∃ a, n.first? name = some a ∧ a.value? = some ⟨k, x⟩ := by
  unfold attribute? first?
  cases n.attributes.find? fun a => a.name == name with
  | none => exact ⟨nofun, fun ⟨a, ha, _⟩ => nomatch ha⟩
  | some a =>
    have hread := Attribute.read_eq_ok_iff (a := a) (k := k) (x := x)
    dsimp only
    constructor
    · intro h
      refine ⟨a, rfl, hread.mp ?_⟩
      cases hr : a.read k with
      | error e =>
        rw [hr] at h
        cases h
      | ok y =>
        rw [hr] at h
        cases h
        rfl
    · rintro ⟨a', ⟨⟩, hvalue⟩
      rw [hread.mpr hvalue]
      rfl

/-- A first attribute that cannot be read is an error, whatever attributes of its name come after it. -/
theorem attribute?_of_ne {a : Attribute} (ha : n.first? name = some a)
    (h : ∀ x : k.Value, a.value? ≠ some ⟨k, x⟩) :
    n.attribute? k name = .error (.typeMismatch name k (typeWord a.type)) := by
  have hname : a.name = name := by simpa using List.find?_some ha
  unfold first? at ha
  rw [attribute?, ha]
  dsimp only
  rw [Attribute.read_of_ne h, hname]
  rfl

theorem value?_of_none (h : n.attribute? k name = .ok none) : n.value? k name = none := by
  rw [value?, attribute?_eq_none_iff.mp h, Option.bind_none]

theorem value?_of_some {x : k.Value} (h : n.attribute? k name = .ok (some x)) :
    n.value? k name = some x := by
  obtain ⟨a, ha, hvalue⟩ := attribute?_eq_some_iff.mp h
  rw [value?, ha, Option.bind_some, hvalue, Option.bind_some]
  exact Value.as?_eq_some_iff.mpr rfl

end Node

end Onnx

end NetPack
