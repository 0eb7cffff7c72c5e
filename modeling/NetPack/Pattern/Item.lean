import NetPack.Pattern.Modes

/-!
# Items

The smallest parts of a regular expression: a character, or what a backslash and the characters behind it
stand for. Whether an item can be used depends on the modes: among bytes there are no categories, and no
item may match a part of a character only.
-/

namespace NetPack.Pattern

inductive Item
  /-- A character; it can be given as the number of a byte. -/
  | char (c : Char) (asByte : Bool)
  /-- Digits, blanks or word characters, or all characters but those. -/
  | named (negated : Bool)
  /-- The characters of a general category, or all but those. -/
  | category (letter : Char)
  /-- A place where a word begins or ends, or one where none does. -/
  | wordEdge
  /-- The beginning or the end of the text. -/
  | textEdge
deriving DecidableEq

namespace Item

/-- The value of a hexadecimal digit. -/
def hexValue? (c : Char) : Option Nat :=
  if c.isDigit then some (c.toNat - '0'.toNat)
  else if 'a' ≤ c ∧ c ≤ 'f' then some (c.toNat - 'a'.toNat + 10)
  else if 'A' ≤ c ∧ c ≤ 'F' then some (c.toNat - 'A'.toNat + 10)
  else none

/-- A number of so many hexadecimal digits behind a value. -/
def readHex (m : Modes) : Nat → Nat → Reader Nat
  | 0, n => pure n
  | k + 1, n => do
    m.skip
    match hexValue? (← Reader.next) with
    | some d => readHex m k (n * 16 + d)
    | none => Reader.fail

/-- The character with a number that is written with so many hexadecimal digits. -/
def readNumber (m : Modes) (digits : Nat) : Reader Item := do
  let n ← readHex m digits 0
  Reader.require (n < 0xd800 || 0xdfff < n && n < 0x110000)
  return .char (Char.ofNat n) (digits = 2)

/-- Whether a backslash in front of a character gives the character itself. -/
def isEscapable (c : Char) : Bool :=
  c.toNat < 0x80 && !c.isAlphanum && c ≠ '<' && c ≠ '>'

/-- What a backslash stands for, with what is behind it. A brace that opens the longer form of a number
or a category is never closed. -/
def readEscape (m : Modes) : Reader Item := do
  match ← Reader.next with
  | 'x' => readNumber m 2
  | 'u' => readNumber m 4
  | 'U' => readNumber m 8
  | 'p' | 'P' => do
    m.skip
    return .category (← Reader.next)
  | 'd' | 's' | 'w' => return .named false
  | 'D' | 'S' | 'W' => return .named true
  | 'b' | 'B' | '<' | '>' => return .wordEdge
  | 'A' | 'z' => return .textEdge
  | 'a' => return .char '\x07' false
  | 't' => return .char '\t' false
  | 'n' => return .char '\n' false
  | 'v' => return .char '\x0b' false
  | 'f' => return .char '\x0c' false
  | 'r' => return .char '\r' false
  | c => do
    Reader.require (isEscapable c)
    return .char c false

/-- The item that begins with a character. -/
def read (m : Modes) (c : Char) : Reader Item :=
  if c = '\\' then readEscape m else return .char c false

/-- The general categories with a name of one letter. -/
def categories : List Char :=
  ['c', 'l', 'm', 'n', 'p', 's', 'z']

/-- Whether an item can stand outside of brackets. -/
def fits (m : Modes) : Item → Bool
  | char c asByte => m.unicode || !asByte || c.toNat < 0x80
  | named negated => m.unicode || !negated
  | category letter => m.unicode && categories.contains letter.toLower
  | wordEdge => true
  | textEdge => true

/-- Whether an item can stand in brackets. -/
def fitsBrackets (m : Modes) : Item → Bool
  | char c _ => m.unicode || c.toNat < 0x80
  | named negated => fits m (named negated)
  | category letter => fits m (category letter)
  | wordEdge => false
  | textEdge => false

end Item

end NetPack.Pattern
