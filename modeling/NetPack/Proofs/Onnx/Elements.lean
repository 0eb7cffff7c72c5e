import NetPack.Proofs.Bytes.Split
import NetPack.Proofs.Onnx.Constant

/-!
# The elements of a tensor

Constants are made of seven element types, and `ElementType.layout?` says for each of them how wide its numbers
are in raw data and which element a number stands for. The elements of a tensor are the entries of the field of
its type or, if it has none, those that its raw data stand for (`Tensor.scalars`). They are what is read,
whichever field they are in (`Tensor.elements_of_whole`), unless the raw data end within a number
(`Tensor.elements_of_ragged`) or the type is another one (`Tensor.elements_of_unsupported`).
-/

namespace NetPack

/-! ## Elements one by one -/

def Elements.type : Elements → NumberType
  | float _ => .float
  | int _ => .int32

def Elements.scalars : Elements → List Scalar
  | float vs => vs.map .float
  | int vs => vs.map .int

@[simp] theorem Elements.length_scalars (es : Elements) : es.scalars.length = es.length := by
  cases es <;> exact List.length_map _

theorem Elements.get?_eq (es : Elements) (i : Nat) : es.get? i = es.scalars[i]? := by
  cases es <;> exact List.getElem?_map.symm

/-- The type matters only if there are no elements. -/
theorem Elements.eq_of_scalars {es es' : Elements} (htype : es.type = es'.type)
    (hscalars : es.scalars = es'.scalars) : es = es' := by
  cases es with
  | float vs =>
    cases es' with
    | float vs' =>
      exact congrArg _ ((List.map_inj_right fun _ _ h => Scalar.float.inj h).mp hscalars)
    | int vs' => cases htype
  | int vs =>
    cases es' with
    | float vs' => cases htype
    | int vs' =>
      exact congrArg _ ((List.map_inj_right fun _ _ h => Scalar.int.inj h).mp hscalars)

/-- A constant without dimensions has one element. -/
theorem Constant.scalar?_of_shape (c : Constant) (h : c.shape = []) :
    ∃ s, c.elements.scalars = [s] ∧ c.scalar? = some s := by
  have hcount := c.count_eq
  rw [h, ← Elements.length_scalars] at hcount
  obtain ⟨s, hs⟩ := List.length_eq_one_iff.mp (Option.some.inj hcount).symm
  refine ⟨s, hs, ?_⟩
  rw [scalar?, h, if_pos List.isEmpty_nil, Elements.get?_eq, hs]
  rfl

namespace Onnx

open LittleEndian (split)

/-! ## Element types -/

/-- How the elements of a type stand in raw data: as numbers of a width, each of which stands for an element of a
constant of the given type. -/
structure RawLayout where
  type : NumberType
  width : Nat
  scalar : Nat → Scalar

/-- The element types that constants are made of. Narrow integers are widened, with their sign if they have one,
and wide ones are moved to the nearest bound. -/
def ElementType.layout? : ElementType → Option RawLayout
  | float => some ⟨.float, 4, fun n => .float ⟨UInt32.ofNat n⟩⟩
  | uint8 => some ⟨.int32, 1, fun n => .int (Int32.ofNat n)⟩
  | int8 => some ⟨.int32, 1, fun n => .int (Int8.ofNat n).toInt32⟩
  | uint16 => some ⟨.int32, 2, fun n => .int (Int32.ofNat n)⟩
  | int16 => some ⟨.int32, 2, fun n => .int (Int16.ofNat n).toInt32⟩
  | int32 => some ⟨.int32, 4, fun n => .int (Int32.ofNat n)⟩
  | int64 => some ⟨.int32, 8, fun n => .int (saturate (Int64.ofNat n))⟩
  | _ => none

theorem ElementType.ofNumber?_eq_some_iff {i : Int} {type : ElementType} :
    ofNumber? i = some type ↔ i = type.number := by
  constructor
  · intro h
    unfold ofNumber? at h
    by_cases hneg : i < 0
    · rw [if_pos hneg] at h
      cases h
    · rw [if_neg hneg] at h
      obtain ⟨hlt, rfl⟩ := List.getElem?_eq_some_iff.mp h
      rw [number, List.Nodup.idxOf_getElem (by decide) i.toNat hlt]
      omega
  · rintro rfl
    exact ofNumber?_number type

theorem ElementType.ofNumber?_ofNat (type : ElementType) :
    ofNumber? (Int32.ofNat type.number).toInt = some type := by
  cases type <;> rfl

theorem ElementType.width_pos {type : ElementType} {l : RawLayout} (h : type.layout? = some l) :
    0 < l.width := by
  cases type <;> cases h <;> decide

/-- The types whose elements share a field with the 32-bit integers. -/
theorem ElementType.scalar_eq {type : ElementType} {l : RawLayout} {i : IntegerLayout}
    (h : type.layout? = some l) (hi : type.integerLayout? = some i) :
    l.type = .int32 ∧ l.width = i.width ∧ ∀ n, l.scalar n = .int (Int32.ofInt (i.value n)) := by
  cases type with
  | uint8 | uint16 =>
    cases h
    cases hi
    exact ⟨rfl, rfl, fun n => congrArg Scalar.int Int32.ofInt_eq_ofNat.symm⟩
  | int8 =>
    cases h
    cases hi
    refine ⟨rfl, rfl, fun n => congrArg Scalar.int ?_⟩
    have hvalue : IntegerLayout.value ⟨1, true⟩ n = Int.bmod n Int8.size := if_pos rfl
    rw [hvalue, ← Int8.toInt_ofNat', ← Int8.toInt_toInt32, Int32.ofInt_toInt]
  | int16 =>
    cases h
    cases hi
    refine ⟨rfl, rfl, fun n => congrArg Scalar.int ?_⟩
    have hvalue : IntegerLayout.value ⟨2, true⟩ n = Int.bmod n Int16.size := if_pos rfl
    rw [hvalue, ← Int16.toInt_ofNat', ← Int16.toInt_toInt32, Int32.ofInt_toInt]
  | int32 =>
    cases h
    cases hi
    refine ⟨rfl, rfl, fun n => congrArg Scalar.int ?_⟩
    have hvalue : IntegerLayout.value ⟨4, true⟩ n = Int.bmod n Int32.size := if_pos rfl
    rw [hvalue, ← Int32.toInt_ofNat', Int32.ofInt_toInt]
  | _ => cases hi

namespace Tensor

/-- How the elements of a tensor stand in raw data, if constants are made of its element type. -/
def layout? (t : Tensor) : Option RawLayout :=
  (ElementType.ofNumber? t.elementType.toInt).bind ElementType.layout?

/-- The elements in the field of the element type. -/
def typed (t : Tensor) : List Scalar :=
  match ElementType.ofNumber? t.elementType.toInt with
  | some .float => t.floatData.map .float
  | some .int64 => t.int64Data.map fun v => .int (saturate v)
  | _ => t.int32Data.map .int

/-- The elements in the raw data, each of them in as many bytes as its type takes. -/
def rawScalars (t : Tensor) (l : RawLayout) : List Scalar :=
  (List.range (t.rawData.length / l.width)).map fun i =>
    l.scalar (LittleEndian.decode ((t.rawData.drop (i * l.width)).take l.width))

/-- The elements of a tensor in order. Raw data count only if the field of the type has no entries. -/
def scalars (t : Tensor) (l : RawLayout) : List Scalar :=
  if t.typed = [] then t.rawScalars l else t.typed

/-- The raw data fill whole elements, or they do not count. -/
def Whole (t : Tensor) (l : RawLayout) : Prop :=
  t.typed ≠ [] ∨ l.width ∣ t.rawData.length

instance (t : Tensor) (l : RawLayout) : Decidable (t.Whole l) :=
  inferInstanceAs (Decidable (_ ∨ _))

theorem rawScalars_eq {t : Tensor} {l : RawLayout} (hwidth : 0 < l.width)
    (h : l.width ∣ t.rawData.length) : t.rawScalars l = (split l.width t.rawData).map l.scalar := by
  have hlength : t.rawData.length = t.rawData.length / l.width * l.width :=
    (Nat.div_mul_cancel h).symm
  apply List.ext_getElem?
  intro i
  rw [List.getElem?_map, LittleEndian.getElem?_split hwidth hlength, rawScalars, List.getElem?_map]
  by_cases hi : i < t.rawData.length / l.width
  · rw [if_pos hi, List.getElem?_range hi]
    rfl
  · rw [if_neg hi, List.getElem?_eq_none (by simpa using hi)]
    rfl

/-! ## Fields -/

section Field

variable {α : Type} {t : Tensor} {field : List α} {width : Nat} {ofNumber : Nat → α} (name : String)

/-- What is read from a field or, if it has no entries, from the raw data. -/
def readField (t : Tensor) (name : String) (field : List α) (width : Nat) (ofNumber : Nat → α) :
    Except Failure (List α) :=
  if field.isEmpty then (t.rawNumbers name width).map fun ns => ns.map ofNumber else .ok field

theorem readField_of_ragged (hempty : field = []) (h : ¬width ∣ t.rawData.length) :
    t.readField name field width ofNumber
      = .error (.invalidTensorData name (.raggedRawData t.rawData.length width)) := by
  have hraw : t.rawNumbers name width
      = .error (.invalidTensorData name (.raggedRawData t.rawData.length width)) :=
    if_neg fun hmod => h (Nat.dvd_of_mod_eq_zero hmod)
  rw [readField, hempty, List.isEmpty_nil, if_pos rfl, hraw]
  rfl

/-- What is read are the elements of the tensor, if the field is that of its type. -/
theorem readField_of_whole {l : RawLayout} {toScalar : α → Scalar} (htyped : t.typed = field.map toScalar)
    (hwidth : 0 < width) (hl : l.width = width) (hscalar : ∀ n, l.scalar n = toScalar (ofNumber n))
    (h : t.Whole l) :
    ∃ vs, t.readField name field width ofNumber = .ok vs ∧ vs.map toScalar = t.scalars l := by
  subst hl
  have hnil : t.typed = [] ↔ field = [] := by rw [htyped, List.map_eq_nil_iff]
  by_cases hempty : field = []
  · have hdvd : l.width ∣ t.rawData.length := h.resolve_left fun hne => hne (hnil.mpr hempty)
    refine ⟨(split l.width t.rawData).map ofNumber, ?_, ?_⟩
    · have hraw : t.rawNumbers name l.width = .ok (split l.width t.rawData) :=
        if_pos (Nat.mod_eq_zero_of_dvd hdvd)
      rw [readField, hempty, List.isEmpty_nil, if_pos rfl, hraw]
      rfl
    · rw [scalars, if_pos (hnil.mpr hempty), rawScalars_eq hwidth hdvd, List.map_map]
      exact List.map_congr_left fun n _ => (hscalar n).symm
  · refine ⟨field, ?_, ?_⟩
    · rw [readField, if_neg (by simpa using hempty)]
    · rw [scalars, if_neg (mt hnil.mp hempty), htyped]

end Field

/-! ## Elements -/

section Elements

variable {t : Tensor} (name : String)

theorem elements_of_unsupported (h : t.layout? = none) :
    t.elements name = .fail (.unsupportedElementType name t.elementType) := by
  unfold layout? at h
  unfold elements
  cases htype : ElementType.ofNumber? t.elementType.toInt with
  | none => rfl
  | some type =>
    rw [htype] at h
    cases type with
    | float | uint8 | int8 | uint16 | int16 | int32 | int64 => cases h
    | _ => rfl

/-- There are three fields, and that of the 32-bit integers serves several types. -/
theorem exists_field {l : RawLayout} (h : t.layout? = some l) :
    (ElementType.ofNumber? t.elementType.toInt = some .float ∧ ElementType.float.layout? = some l) ∨
    (ElementType.ofNumber? t.elementType.toInt = some .int64 ∧ ElementType.int64.layout? = some l) ∨
    ∃ type i, ElementType.ofNumber? t.elementType.toInt = some type ∧ type.layout? = some l ∧
      type.integerLayout? = some i := by
  obtain ⟨type, htype, hl⟩ := Option.bind_eq_some_iff.mp h
  cases type with
  | float => exact .inl ⟨htype, hl⟩
  | int64 => exact .inr (.inl ⟨htype, hl⟩)
  | uint8 | int8 | uint16 | int16 | int32 => exact .inr (.inr ⟨_, _, htype, hl, rfl⟩)
  | _ => cases hl

variable {type : ElementType} {i : IntegerLayout}

theorem elements_of_float (h : ElementType.ofNumber? t.elementType.toInt = some .float) :
    t.elements name = .ofExcept ((t.floats name).map .float) := by
  unfold elements
  rw [h]

theorem elements_of_int64 (h : ElementType.ofNumber? t.elementType.toInt = some .int64) :
    t.elements name = .ofExcept (t.int64s name) >>= fun vs => narrow name vs >>= fun cs =>
      pure (.int cs) := by
  unfold elements
  rw [h]

theorem elements_of_integer (h : ElementType.ofNumber? t.elementType.toInt = some type)
    (hi : type.integerLayout? = some i) :
    t.elements name = .ofExcept ((t.int32s name i).map .int) := by
  unfold elements
  rw [h]
  cases type <;> cases hi <;> rfl

theorem integers_of_ne (h : ElementType.ofNumber? t.elementType.toInt ≠ some .int64) :
    t.integers = [] :=
  if_neg h

theorem integers_of_int64 (h : ElementType.ofNumber? t.elementType.toInt = some .int64) : t.integers =
    if t.int64Data.isEmpty then (split 8 t.rawData).map Int64.ofNat else t.int64Data :=
  if_pos h

theorem typed_of_float (h : ElementType.ofNumber? t.elementType.toInt = some .float) :
    t.typed = t.floatData.map .float := by
  unfold typed
  rw [h]

theorem typed_of_int64 (h : ElementType.ofNumber? t.elementType.toInt = some .int64) :
    t.typed = t.int64Data.map fun v => .int (saturate v) := by
  unfold typed
  rw [h]

theorem typed_of_integer (h : ElementType.ofNumber? t.elementType.toInt = some type)
    (hi : type.integerLayout? = some i) : t.typed = t.int32Data.map .int := by
  unfold typed
  rw [h]
  cases type <;> cases hi <;> rfl

/-- Raw data that end within an element are refused, whatever the type. -/
theorem elements_of_ragged {l : RawLayout} (h : t.layout? = some l) (hragged : ¬t.Whole l) :
    t.elements name = .fail (.invalidTensorData name (.raggedRawData t.rawData.length l.width)) := by
  have hdvd : ¬l.width ∣ t.rawData.length := fun hd => hragged (.inr hd)
  have hempty : t.typed = [] := Decidable.of_not_not fun hne => hragged (.inl hne)
  rcases exists_field h with ⟨htype, hl⟩ | ⟨htype, hl⟩ | ⟨type, i, htype, hl, hi⟩
  · rw [typed_of_float htype, List.map_eq_nil_iff] at hempty
    cases hl
    rw [elements_of_float name htype]
    exact congrArg (fun r => Logged.ofExcept (r.map Elements.float))
      (readField_of_ragged name hempty hdvd)
  · rw [typed_of_int64 htype, List.map_eq_nil_iff] at hempty
    cases hl
    rw [elements_of_int64 name htype]
    exact congrArg (fun r => Logged.ofExcept r >>= _) (readField_of_ragged name hempty hdvd)
  · rw [typed_of_integer htype hi, List.map_eq_nil_iff] at hempty
    rw [elements_of_integer name htype hi]
    rw [(ElementType.scalar_eq hl hi).2.1] at hdvd ⊢
    exact congrArg (fun r => Logged.ofExcept (r.map Elements.int))
      (readField_of_ragged name hempty hdvd)

/-- Otherwise the elements of the tensor are read, and what is found are its 64-bit integers that have to be
moved. -/
theorem elements_of_whole {l : RawLayout} (h : t.layout? = some l) (hwhole : t.Whole l) :
    ∃ es, t.elements name = ⟨clampings name t.integers, .ok es⟩ ∧ es.type = l.type ∧
      es.scalars = t.scalars l := by
  rcases exists_field h with ⟨htype, hl⟩ | ⟨htype, hl⟩ | ⟨type, i, htype, hl, hi⟩
  · cases hl
    obtain ⟨vs, hvs, hscalars⟩ := readField_of_whole name (typed_of_float htype) (by decide) rfl
      (fun _ => rfl) hwhole
    refine ⟨.float vs, ?_, rfl, hscalars⟩
    rw [elements_of_float name htype, integers_of_ne (by rw [htype]; decide)]
    exact congrArg (fun r => Logged.ofExcept (r.map Elements.float)) hvs
  · cases hl
    obtain ⟨vs, hvs, hscalars⟩ := readField_of_whole name (typed_of_int64 htype) (by decide) rfl
      (fun _ => rfl) hwhole
    refine ⟨.int (vs.map saturate), ?_, rfl, ?_⟩
    · rw [elements_of_int64 name htype, int64s_eq htype hvs]
      have hread : t.int64s name = .ok vs := hvs
      have hpure : (.ofExcept (.ok vs) : Reported (List Int64)) = pure vs := rfl
      rw [hread, hpure, pure_bind, narrow_eq]
      exact congrArg (Logged.mk · _) (List.append_nil _)
    · rw [← hscalars]
      exact List.map_map
  · obtain ⟨hltype, hwidth, hscalar⟩ := ElementType.scalar_eq hl hi
    obtain ⟨vs, hvs, hscalars⟩ := readField_of_whole name (typed_of_integer htype hi)
      (hwidth ▸ ElementType.width_pos hl) hwidth hscalar hwhole
    refine ⟨.int vs, ?_, hltype.symm, hscalars⟩
    have hne : ElementType.ofNumber? t.elementType.toInt ≠ some .int64 := by
      rw [htype]
      rintro ⟨⟩
      cases hi
    rw [elements_of_integer name htype hi, integers_of_ne hne]
    exact congrArg (fun r => Logged.ofExcept (r.map Elements.int)) hvs

/-- Tensors of one element type are read alike if they have the same elements and the same 64-bit integers. -/
theorem elements_congr {t' : Tensor} {l : RawLayout} (h : t.layout? = some l) (h' : t'.layout? = some l)
    (hwhole : t.Whole l) (hwhole' : t'.Whole l) (hscalars : t'.scalars l = t.scalars l)
    (hintegers : t'.integers = t.integers) : t'.elements name = t.elements name := by
  obtain ⟨es, helements, htype, hes⟩ := elements_of_whole name h hwhole
  obtain ⟨es', helements', htype', hes'⟩ := elements_of_whole name h' hwhole'
  have heq : es' = es := Elements.eq_of_scalars (htype'.trans htype.symm) (by rw [hes, hes', hscalars])
  rw [helements, helements', heq, hintegers]

end Elements

theorem toConstantNamed_congr {t t' : Tensor} {name : String} (hdims : t'.dims = t.dims)
    (helements : t'.elements name = t.elements name) : t'.toConstantNamed name = t.toConstantNamed name := by
  unfold toConstantNamed shape
  rw [hdims, helements]

end Tensor

end Onnx

end NetPack
