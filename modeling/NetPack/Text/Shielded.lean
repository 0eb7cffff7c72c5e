/-!
# Shielded text

Text from a file can hold characters that a terminal takes for commands. Shielded text gives those
characters by number, and every other character, line breaks included, stands for itself.
-/

namespace NetPack.Text

/-- The control characters below U+0080 that begin or make up commands to a terminal. -/
def steering : List Char :=
  ['\x07', '\x08', '\x0c', '\x1b', '\x7f']

/-- A character of a message. One that steers a terminal is given by its number. -/
def shieldChar (c : Char) : List Char :=
  let number := Nat.toDigits 16 c.toNat
  if steering.contains c then ['\\', 'x'] ++ List.replicate (2 - number.length) '0' ++ number
  else if '\u0080' ≤ c ∧ c ≤ '\u009f' then ['\\', 'u', '\x7b'] ++ number ++ ['\x7d']
  else [c]

/-- A text that cannot steer a terminal. -/
def shield (s : String) : String :=
  String.ofList (s.toList.flatMap shieldChar)

example : shield "a\x1b[0m\u009f\n" = "a\\x1b[0m\\u\x7b9f\x7d\n" := by
  decide +kernel

end NetPack.Text
