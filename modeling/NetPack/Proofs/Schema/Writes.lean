import NetPack.Proofs.Schema.Pushes

/-!
# Writes one after the other

A network is packed by writing texts, vectors of numbers, vectors of references and tables, where a vector or a
table refers to what was written before by offset (`Write`). What a write puts into a buffer is read at the offset
that it gives (`Write.written`). As a buffer grows at its front only, it is read there ever after
(`Write.ReadAt.grown`) and cannot be told from what it was (`Write.ReadAt.sameAt`); so after any number of writes
all that was written is read (`written_all`).
-/

namespace NetPack.Schema

open Buffer (Image Lays Object Stands Table Writer Written)
open Buffer.Writer (Listed sizeLimit slotLimit)

/-! ## Writes -/

/-- The write of one object, where references are given by offset. -/
inductive Write
  | text (bytes : List UInt8)
  | words (values : List UInt32)
  | ints (values : List Int32)
  | floats (values : List Single)
  | references (offsets : List Nat)
  | table (fields : Pushes)

namespace Write

/-- Writes the object and gives its offset. -/
def apply (w : Writer) : Write → Writer × Nat
  | text bs => (Object.text bs).write w
  | words vs => (unsignedList vs).write w
  | ints vs => (intList vs).write w
  | floats vs => (floatList vs).write w
  | references offsets =>
    let w := w.references offsets
    (w, w.size)
  | table fields => w.table (fields.cells w)

/-- The write refers to what the buffer already has, and the slots of a table are distinct and few. -/
def Allowed (w : Writer) : Write → Prop
  | references offsets => ∀ offset ∈ offsets, offset ≤ w.size
  | table fields =>
    (fields.map (·.1)).Nodup ∧ (∀ slot ∈ fields.map (·.1), slot < slotLimit) ∧
      ∀ offset, Push.always (.reference offset) ∈ fields.map (·.2) → offset ≤ w.size
  | _ => True

/-- The numbers of a vector as they are stored. -/
def vector? : Write → Option (List UInt32)
  | words vs => some vs
  | ints vs => some (vs.map Int32.toUInt32)
  | floats vs => some (vs.map Single.bits)
  | _ => none

/-- What a reader makes of the object at an offset is what was written: the elements of a vector in their order,
and for a table each push in its slot and the defaults in the other slots. -/
def Shown (b : Image) (offset : Nat) : Write → Prop
  | text bs => b.text (b.place offset) = bs
  | words vs => b.words (b.place offset) = vs
  | ints vs => (b.words (b.place offset)).map UInt32.toInt32 = vs
  | floats vs => (b.words (b.place offset)).map Single.mk = vs
  | references offsets => b.references (b.place offset) = offsets
  | table fields =>
    (Table.ofOffset b offset).VtableInside ∧
      (∀ slot, slot ∉ fields.map (·.1) → ReadsDefault (Table.ofOffset b offset) slot) ∧
      ∀ slot v, (slot, v) ∈ fields → v.ReadAt (Table.ofOffset b offset) slot

/-- The object of a write stands in an image and is read as it was written. -/
structure ReadAt (b : Image) (offset : Nat) (c : Write) : Prop where
  inside : offset ≤ b.size
  shown : c.Shown b offset

/-- A reader cannot tell apart what two images have at an offset, when it reads it as an object of the kind that
was written. -/
def SameAt (b b' : Image) (offset : Nat) : Write → Prop
  | text _ => b.text (b.place offset) = b'.text (b'.place offset)
  | words _ | ints _ | floats _ => b.words (b.place offset) = b'.words (b'.place offset)
  | references _ => b.references (b.place offset) = b'.references (b'.place offset)
  | table _ => (Table.ofOffset b offset).answers = (Table.ofOffset b' offset).answers

/-! ## Growth -/

section Grown

variable {b : Image} {offset : Nat} {c : Write}

theorem ReadAt.grown (h : c.ReadAt b offset) (front : Image) : c.ReadAt (front ++ b) offset := by
  obtain ⟨hin, hs⟩ := h
  refine ⟨by rw [Array.size_append]; omega, ?_⟩
  cases c with
  | text bs => rwa [Shown, Image.place_grown front b hin, Image.text_grown]
  | words vs | ints vs | floats vs => rwa [Shown, Image.place_grown front b hin, Image.words_grown]
  | references offsets => rwa [Shown, Image.place_grown front b hin, Image.references_grown]
  | table fields =>
    obtain ⟨hv, habsent, hread⟩ := hs
    have ha := Table.answers_grown front hv
    rw [Shown, Table.ofOffset_grown front hin]
    refine ⟨Table.vtableInside_grown front hv, fun slot hslot => ?_, fun slot v hm => ?_⟩
    · exact readsDefault_of_absent ((congrFun ha slot).trans (habsent slot hslot).absent)
    · exact (Push.readAt_congr (congrFun ha slot) v).mpr (hread slot v hm)

theorem ReadAt.sameAt (h : c.ReadAt b offset) (front front' : Image) :
    c.SameAt (front ++ b) (front' ++ b) offset := by
  obtain ⟨hin, hs⟩ := h
  have hp := Image.place_grown front b hin
  have hp' := Image.place_grown front' b hin
  cases c with
  | text bs => rw [SameAt, hp, hp', Image.text_grown, Image.text_grown]
  | words vs | ints vs | floats vs => rw [SameAt, hp, hp', Image.words_grown, Image.words_grown]
  | references offsets => rw [SameAt, hp, hp', Image.references_grown, Image.references_grown]
  | table fields =>
    rw [SameAt, Table.ofOffset_grown front hin, Table.ofOffset_grown front' hin, Table.answers_grown front hs.1,
      Table.answers_grown front' hs.1]

end Grown

/-! ## What a write leaves -/

section Written

variable {w : Writer}

/-- A vector is pushed back to front. -/
theorem apply_vector {c : Write} {ws : List UInt32} (h : c.vector? = some ws) :
    (c.apply w).1 = w.pushWords ws := by
  rw [← w.words_eq_pushWords]
  cases c with
  | words vs | ints vs | floats vs =>
    cases h
    rfl
  | _ => cases h

/-- An object that stands in a buffer lies in the image of the buffer itself. -/
theorem lays_of_stands {offset : Nat} {o : Object} (h : Stands w offset o) (hs : w.size < sizeLimit) :
    Lays (3 * w.bytes.length) w.bytes.toArray (Image.place w.bytes.toArray offset) o :=
  h.lays w.bytes List.suffix_rfl (w.size_eq ▸ hs) _ (by omega)

theorem inside_of_le {offset : Nat} (h : offset ≤ w.size) : offset ≤ Array.size w.bytes.toArray := by
  rwa [List.size_toArray, ← w.size_eq]

theorem written_words (hw : w.Sound) (vs : List UInt32) :
    Written w ((unsignedList vs).write w) fun w' offset => w'.size < sizeLimit →
      offset ≤ Array.size w'.bytes.toArray ∧
        Image.words w'.bytes.toArray (Image.place w'.bytes.toArray offset) = vs := by
  have h := Object.written w hw (.words vs) trivial
  refine ⟨h.suffix, h.sound, fun hs => ⟨inside_of_le h.result.offset_le, ?_⟩⟩
  cases lays_of_stands h.result hs with
  | words vector words => exact words

/-- The references of a vector are read as the offsets that they were given for. -/
theorem references_of_listed {w' : Writer} {offsets : List Nat} (h : Listed w w' offsets)
    (ho : ∀ offset ∈ offsets, offset ≤ w.size) (hs : w'.size < sizeLimit) :
    Image.references w'.bytes.toArray 0 = offsets := by
  have hsize := w'.size_eq
  have hle := h.le_size
  rw [hsize] at hs
  have hn := h.numberAt_eq List.suffix_rfl hs (by omega : 0 + w'.size = w'.bytes.length)
  rw [Image.references, Image.elements, hn, List.map_map]
  apply List.ext_getElem (by simp)
  intro k h1 h2
  have hk := List.getElem?_eq_getElem h2
  have hnum := h.numberAt_element List.suffix_rfl hs (by omega : 0 + w'.size = w'.bytes.length) hk
  have hback := ho offsets[k] (List.getElem_mem h2)
  rw [List.getElem_map, List.getElem_range, Function.comp_apply, Image.follow, hnum, List.size_toArray]
  omega

theorem written_references (hw : w.Sound) {offsets : List Nat} (ho : ∀ offset ∈ offsets, offset ≤ w.size) :
    Written w ((references offsets).apply w) fun w' offset => w'.size < sizeLimit →
      (references offsets).ReadAt w'.bytes.toArray offset := by
  have h := w.listed_references offsets
  refine ⟨h.suffix, hw.of_suffix h.suffix h.vtables, fun hs => ⟨inside_of_le (Nat.le_refl _), ?_⟩⟩
  have hplace : Image.place (w.references offsets).bytes.toArray (w.references offsets).size = 0 := by
    rw [Image.place, List.size_toArray, ← Writer.size_eq, Nat.sub_self]
  show Image.references _ (Image.place (w.references offsets).bytes.toArray (w.references offsets).size) = _
  rw [hplace]
  exact references_of_listed h ho hs

theorem written_fields (hw : w.Sound) {fields : Pushes} (hf : (table fields).Allowed w) :
    Written w ((table fields).apply w) fun w' offset => w'.size < sizeLimit →
      (table fields).ReadAt w'.bytes.toArray offset := by
  obtain ⟨hn, hslots, hback⟩ := hf
  have hsub := Pushes.sublist_slots w fields
  have h := written_table hw (hn.sublist hsub) (fun s hs => hslots s (hsub.subset hs))
    (Pushes.refersBack hback)
  refine ⟨h.suffix, h.sound, fun hs => ?_⟩
  obtain ⟨hin, hv, hshow⟩ := h.result hs
  refine ⟨inside_of_le hin, hv, fun slot hslot => ?_, fun slot v hm => ?_⟩
  · have hnone := hshow slot
    rw [Pushes.lookup_eq_none hslot] at hnone
    exact readsDefault_of_absent hnone
  · have hcell := hshow slot
    rw [Pushes.lookup_eq_cell? hn hm] at hcell
    exact Push.readAt_of_shows hcell

/-- The object of a write is read at its offset as it was written. -/
theorem written (hw : w.Sound) {c : Write} (hc : c.Allowed w) :
    Written w (c.apply w) fun w' offset => w'.size < sizeLimit → c.ReadAt w'.bytes.toArray offset := by
  cases c with
  | text bs =>
    have h := Object.written w hw (.text bs) trivial
    refine ⟨h.suffix, h.sound, fun hs => ⟨inside_of_le h.result.offset_le, ?_⟩⟩
    cases lays_of_stands h.result hs with
    | text ended text => exact text
  | words vs =>
    have h := written_words hw vs
    exact ⟨h.suffix, h.sound, fun hs => ⟨(h.result hs).1, (h.result hs).2⟩⟩
  | ints vs =>
    have h := written_words hw (vs.map Int32.toUInt32)
    refine ⟨h.suffix, h.sound, fun hs => ⟨(h.result hs).1, ?_⟩⟩
    exact (congrArg (List.map UInt32.toInt32) (h.result hs).2).trans (toInt32_words vs)
  | floats vs =>
    have h := written_words hw (vs.map Single.bits)
    refine ⟨h.suffix, h.sound, fun hs => ⟨(h.result hs).1, ?_⟩⟩
    exact (congrArg (List.map Single.mk) (h.result hs).2).trans (single_words vs)
  | references offsets => exact written_references hw hc
  | table fields => exact written_fields hw hc

end Written

end Write

/-! ## Many writes -/

/-- Writes objects one after the other, and keeps what was written at which offset. -/
def writeAll (w : Writer) : List Write → Writer × List (Write × Nat)
  | [] => (w, [])
  | c :: cs =>
    let (w, offset) := c.apply w
    let (final, log) := writeAll w cs
    (final, (c, offset) :: log)

/-- Each write refers to what the buffer has by then. -/
def AllAllowed (w : Writer) : List Write → Prop
  | [] => True
  | c :: cs => c.Allowed w ∧ AllAllowed (c.apply w).1 cs

theorem writeAll_cons (w : Writer) (c : Write) (cs : List Write) :
    writeAll w (c :: cs) =
      ((writeAll (c.apply w).1 cs).1, (c, (c.apply w).2) :: (writeAll (c.apply w).1 cs).2) :=
  rfl

theorem writeAll_append (w : Writer) (cs ds : List Write) :
    writeAll w (cs ++ ds) =
      ((writeAll (writeAll w cs).1 ds).1, (writeAll w cs).2 ++ (writeAll (writeAll w cs).1 ds).2) := by
  induction cs generalizing w with
  | nil => rfl
  | cons c cs ih => rw [List.cons_append, writeAll_cons, writeAll_cons, ih (c.apply w).1, List.cons_append]

theorem writeAll_concat (w : Writer) (cs : List Write) (c : Write) :
    writeAll w (cs ++ [c]) =
      ((c.apply (writeAll w cs).1).1, (writeAll w cs).2 ++ [(c, (c.apply (writeAll w cs).1).2)]) :=
  writeAll_append w cs [c]

theorem allAllowed_append (w : Writer) (cs ds : List Write) :
    AllAllowed w (cs ++ ds) ↔ AllAllowed w cs ∧ AllAllowed (writeAll w cs).1 ds := by
  induction cs generalizing w with
  | nil => exact (iff_of_eq (true_and _)).symm
  | cons c cs ih => rw [List.cons_append, AllAllowed, AllAllowed, ih (c.apply w).1, and_assoc, writeAll_cons]

/-- A larger buffer shows at an offset what it showed when the object was written. -/
theorem Write.ReadAt.of_suffix {w w' : Writer} {offset : Nat} {c : Write} (h : c.ReadAt w.bytes.toArray offset)
    (hs : w.bytes <:+ w'.bytes) : c.ReadAt w'.bytes.toArray offset := by
  obtain ⟨more, hm⟩ := hs
  rw [← hm, ← List.append_toArray]
  exact h.grown more.toArray

/-- All that was written is read, each object at its offset. -/
theorem written_all {w : Writer} (hw : w.Sound) {cs : List Write} (hc : AllAllowed w cs) :
    Written w (writeAll w cs) fun w' log => w'.size < sizeLimit →
      ∀ c offset, (c, offset) ∈ log → c.ReadAt w'.bytes.toArray offset := by
  induction cs generalizing w with
  | nil => exact ⟨List.suffix_rfl, hw, fun _ _ _ hm => nomatch hm⟩
  | cons c cs ih =>
    obtain ⟨hc, hcs⟩ := hc
    have hhead := Write.written hw hc
    have htail := ih hhead.sound hcs
    refine ⟨hhead.suffix.trans htail.suffix, htail.sound, fun hs d offset hm => ?_⟩
    rcases List.mem_cons.mp hm with he | hm
    · cases he
      have hle := htail.suffix.length_le
      rw [← Writer.size_eq, ← Writer.size_eq] at hle
      exact Write.ReadAt.of_suffix (hhead.result (Nat.lt_of_le_of_lt hle hs)) htail.suffix
    · exact htail.result hs d offset hm

end NetPack.Schema
