/-!
# Ranges of characters

A class of characters is written as a list of closed ranges of code points.
-/

namespace NetPack.Text

/-- A closed range of code points. -/
abbrev CharRange := Nat × Nat

/-- Whether one of the ranges holds a character. -/
def CharRange.cover (table : List CharRange) (c : Char) : Bool :=
  table.any fun r => r.1 ≤ c.val.toNat && c.val.toNat ≤ r.2

end NetPack.Text
