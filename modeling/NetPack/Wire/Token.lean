import NetPack.Bytes.LittleEndian

/-!
# Tokens of the wire format

A message on the wire is a sequence of fields, each a key and a payload whose extent the key tells, so
that fields of unknown meaning can be passed over. Every reader gives what it read and the rest of the
bytes, and the rest of a key is shorter than what it was read from (`length_of_readKey`), which bounds
all loops.
-/

namespace NetPack.Wire

/-- Reads a number in groups of seven bits, lowest first, from at most so many bytes. The tenth byte
could only hold one more bit of 64. -/
def readVarintFrom : Nat → List UInt8 → Option (Nat × List UInt8)
  | 0, _ => none
  | _, [] => none
  | k + 1, b :: bs =>
    if b < 0x80 then
      if k = 0 ∧ 1 < b then none else some (b.toNat, bs)
    else do
      let (n, rest) ← readVarintFrom k bs
      some (b.toNat % 128 + 128 * n, rest)

/-- Reads a number of at most 64 bits. -/
def readVarint : List UInt8 → Option (Nat × List UInt8) :=
  readVarintFrom 10

/-- The bytes of a length, if there are so many, and the rest. -/
def takeExactly (n : Nat) (bs : List UInt8) : Option (List UInt8 × List UInt8) :=
  if n ≤ bs.length then some (bs.take n, bs.drop n) else none

/-- How the payload of a field is written. -/
inductive WireType
  | varint | fixed64 | bytes | groupStart | groupEnd | fixed32
deriving DecidableEq, Repr

def WireType.ofNumber? : Nat → Option WireType
  | 0 => some varint
  | 1 => some fixed64
  | 2 => some bytes
  | 3 => some groupStart
  | 4 => some groupEnd
  | 5 => some fixed32
  | _ => none

/-- The number of a field and how its payload is written. -/
structure Key where
  field : Nat
  wireType : WireType
deriving DecidableEq, Repr

/-- Reads a key: 32 bits, of which the lowest three are the wire type. No field has number zero. -/
def readKey (bs : List UInt8) : Option (Key × List UInt8) := do
  let (n, rest) ← readVarint bs
  if n < 0x100000000 ∧ 8 ≤ n then
    let t ← WireType.ofNumber? (n % 8)
    some (⟨n / 8, t⟩, rest)
  else none

/-- The payload of a field. -/
inductive Payload
  | varint (n : Nat)
  | fixed64 (n : Nat)
  | bytes (bs : List UInt8)
  | fixed32 (n : Nat)
deriving DecidableEq

/-- Reads the payload of a wire type that is not a group. -/
def readPayload (t : WireType) (bs : List UInt8) : Option (Payload × List UInt8) :=
  match t with
  | .varint => (readVarint bs).map fun (n, rest) => (.varint n, rest)
  | .fixed64 => (takeExactly 8 bs).map fun (v, rest) => (.fixed64 (LittleEndian.decode v), rest)
  | .fixed32 => (takeExactly 4 bs).map fun (v, rest) => (.fixed32 (LittleEndian.decode v), rest)
  | .bytes => do
    let (n, rest) ← readVarint bs
    let (v, rest) ← takeExactly n rest
    some (.bytes v, rest)
  | .groupStart | .groupEnd => none

/-! ## Rests are shorter -/

theorem length_of_readVarintFrom {k n : Nat} {bs rest : List UInt8}
    (h : readVarintFrom k bs = some (n, rest)) : rest.length < bs.length := by
  induction k generalizing n bs rest with
  | zero => simp [readVarintFrom] at h
  | succ k ih =>
    cases bs with
    | nil => simp [readVarintFrom] at h
    | cons b bs =>
      simp only [readVarintFrom] at h
      split at h
      · split at h <;> simp_all
      · obtain ⟨⟨m, r⟩, hm, h⟩ := Option.bind_eq_some_iff.1 h
        have := ih hm
        simp only [Option.some.injEq, Prod.mk.injEq] at h
        simp only [List.length_cons, ← h.2]
        omega

theorem length_of_takeExactly {n : Nat} {bs v rest : List UInt8}
    (h : takeExactly n bs = some (v, rest)) : rest.length ≤ bs.length := by
  simp only [takeExactly] at h
  split at h
  · simp only [Option.some.injEq, Prod.mk.injEq] at h
    simp [← h.2]
  · simp at h

theorem length_of_readKey {k : Key} {bs rest : List UInt8} (h : readKey bs = some (k, rest)) :
    rest.length < bs.length := by
  obtain ⟨⟨n, r⟩, hn, h⟩ := Option.bind_eq_some_iff.1 h
  have := length_of_readVarintFrom hn
  simp only at h
  split at h
  · obtain ⟨t, -, h⟩ := Option.bind_eq_some_iff.1 h
    simp_all
  · simp at h

theorem length_of_readPayload {t : WireType} {p : Payload} {bs rest : List UInt8}
    (h : readPayload t bs = some (p, rest)) : rest.length ≤ bs.length := by
  cases t with
  | varint =>
    obtain ⟨⟨n, r⟩, hn, h⟩ := Option.map_eq_some_iff.1 h
    have := length_of_readVarintFrom hn
    simp_all
    omega
  | fixed64 =>
    obtain ⟨⟨n, r⟩, hn, h⟩ := Option.map_eq_some_iff.1 h
    have := length_of_takeExactly hn
    simp_all
  | fixed32 =>
    obtain ⟨⟨n, r⟩, hn, h⟩ := Option.map_eq_some_iff.1 h
    have := length_of_takeExactly hn
    simp_all
  | bytes =>
    obtain ⟨⟨n, r⟩, hn, h⟩ := Option.bind_eq_some_iff.1 h
    obtain ⟨⟨v, s⟩, hv, h⟩ := Option.bind_eq_some_iff.1 h
    have := length_of_readVarintFrom hn
    have := length_of_takeExactly hv
    simp_all
    omega
  | groupStart => simp [readPayload] at h
  | groupEnd => simp [readPayload] at h

/-! ## Fields -/

/-- A field of a message; a group has no payload. -/
structure Token where
  field : Nat
  payload : Option Payload
deriving DecidableEq

/-- The fields of a message, given the numbers of the groups that are open, innermost first. Fields in
a group are passed over, and no more than `depth` groups may be open behind the start of one. -/
def tokens (depth : Nat) (opened : List Nat) (bs : List UInt8) : Option (List Token) :=
  if bs.isEmpty then
    if opened.isEmpty then some [] else none
  else
    match hk : readKey bs with
    | none => none
    | some (key, rest) =>
      have := length_of_readKey hk
      let room := opened.length < depth
      match key.wireType with
      | .groupEnd =>
        if opened.head? = some key.field then tokens depth opened.tail rest else none
      | .groupStart =>
        if room then
          let ts := tokens depth (key.field :: opened) rest
          if opened.isEmpty then ts.map (⟨key.field, none⟩ :: ·) else ts
        else none
      | t =>
        match hp : readPayload t rest with
        | none => none
        | some (p, rest') =>
          have := length_of_readPayload hp
          if opened.isEmpty then (tokens depth opened rest').map (⟨key.field, some p⟩ :: ·)
          else if room then tokens depth opened rest'
          else none
termination_by bs.length

end NetPack.Wire
