/-!
# Reading UTF-8 that may be malformed

Every byte string has a text: a well-formed sequence stands for its character, a sequence that is
cut short becomes one replacement character, and so does every other byte that cannot be read. A
byte string is well formed exactly if writing its text gives it back.
-/

namespace NetPack.Text

/-- The bytes of a text. -/
def utf8 (cs : List Char) : List UInt8 :=
  cs.flatMap String.utf8EncodeChar

def replacement : Char :=
  '\ufffd'

/-- A closed range of byte values. -/
structure ByteRange where
  low : UInt8
  high : UInt8
deriving DecidableEq, Repr

def ByteRange.holds (r : ByteRange) (b : UInt8) : Bool :=
  r.low ≤ b && b ≤ r.high

/-- A continuation byte. -/
def ByteRange.tail : ByteRange :=
  ⟨0x80, 0xbf⟩

/-- What may follow the first byte of a sequence; nothing if no sequence starts with it. The
narrower ranges leave out overlong forms, surrogates and numbers beyond the last code point. -/
def following? (b : UInt8) : Option (List ByteRange) :=
  if b < 0x80 then some []
  else if b < 0xc2 then none
  else if b < 0xe0 then some [.tail]
  else if b = 0xe0 then some [⟨0xa0, 0xbf⟩, .tail]
  else if b = 0xed then some [⟨0x80, 0x9f⟩, .tail]
  else if b < 0xf0 then some [.tail, .tail]
  else if b = 0xf0 then some [⟨0x90, 0xbf⟩, .tail, .tail]
  else if b < 0xf4 then some [.tail, .tail, .tail]
  else if b = 0xf4 then some [⟨0x80, 0x8f⟩, .tail, .tail]
  else none

/-- The bytes that fit the ranges one by one, up to the first that does not. -/
def matching : List ByteRange → List UInt8 → List UInt8
  | r :: rs, b :: bs => if r.holds b then b :: matching rs bs else []
  | _, _ => []

/-- The code point of a sequence: the payload of its first byte, which is shorter the more bytes
follow, and six bits from each of those. -/
def codePoint (first : UInt8) (rest : List UInt8) : Nat :=
  let payload := if rest.isEmpty then first.toNat else first.toNat % Nat.pow 2 (6 - rest.length)
  rest.foldl (fun n b => n * 64 + b.toNat % 64) payload

/-- The first character of a nonempty byte string, and how many bytes after the first it takes. -/
def readChar (b : UInt8) (bs : List UInt8) : Char × Nat :=
  match following? b with
  | none => (replacement, 0)
  | some ranges =>
    let rest := matching ranges bs
    if rest.length = ranges.length then (Char.ofNat (codePoint b rest), rest.length)
    else (replacement, rest.length)

/-- The text of any byte string. -/
def readUtf8 : List UInt8 → List Char
  | [] => []
  | b :: bs => (readChar b bs).1 :: readUtf8 (bs.drop (readChar b bs).2)
termination_by bs => bs.length
decreasing_by
  simp only [List.length_drop, List.length_cons]
  omega

/-- The text of a well-formed byte string. -/
def readUtf8? (bs : List UInt8) : Option (List Char) :=
  let cs := readUtf8 bs
  if utf8 cs = bs then some cs else none

theorem utf8_of_readUtf8?_eq_some {bs : List UInt8} {cs : List Char}
    (h : readUtf8? bs = some cs) : utf8 cs = bs := by
  simp only [readUtf8?] at h
  split at h
  next hb => simp_all
  next => simp at h

example : readUtf8 [0xc3, 0x28] = ['\ufffd', '('] := by cbv

example : readUtf8 [0xed, 0xa0, 0x80] = ['\ufffd', '\ufffd', '\ufffd'] := by cbv

example : readUtf8 [0xf0, 0x9f, 0x8e] = ['\ufffd'] ∧ readUtf8 [0xf0, 0x9f, 0x8e, 0x89] = ['🎉'] := by
  constructor <;> cbv

end NetPack.Text
