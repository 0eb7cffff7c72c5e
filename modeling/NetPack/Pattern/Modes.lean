import NetPack.Pattern.Reader
import NetPack.Text.Blank

/-!
# Modes

How a regular expression is read from some place on: whether its characters are those of Unicode or only
bytes, and whether blanks and comments between its parts are skipped. Flags change the modes, and the
modes of a group end with it. The other flags say how an expression matches and have no part in whether
it is well formed.
-/

namespace NetPack.Pattern

structure Modes where
  unicode : Bool := true
  spaced : Bool := false

namespace Modes

/-- A text without the blanks and comments in front of it. A comment goes from `#` to the end of its
line. -/
def dropSpace (inComment : Bool) : List Char → List Char
  | [] => []
  | c :: r =>
    if inComment then dropSpace (c ≠ '\n') r
    else if Text.isBlank c then dropSpace false r
    else if c = '#' then dropSpace true r
    else c :: r

theorem length_dropSpace (b : Bool) (s : List Char) : (dropSpace b s).length ≤ s.length := by
  induction s generalizing b with
  | nil => exact Nat.le_refl _
  | cons c r ih =>
    unfold dropSpace
    split
    · exact Nat.le_succ_of_le (ih _)
    · split
      · exact Nat.le_succ_of_le (ih _)
      · split
        · exact Nat.le_succ_of_le (ih _)
        · exact Nat.le_refl _

/-- Skips what stands between two parts. -/
def skip (m : Modes) : Reader Unit :=
  if m.spaced then fun s => some ((), ⟨dropSpace false s, length_dropSpace false s⟩) else pure ()

/-- The character behind the next one. Blanks do not count if they are skipped, nor does a first `#`
among them. -/
def second (m : Modes) : Reader (Option Char) :=
  Reader.lookAhead do
    let _ ← Reader.next
    if m.spaced then
      let _ ← Reader.takeWhile Text.isBlank
      let _ ← Reader.nextIf '#'
      let _ ← Reader.takeWhile Text.isBlank
    Reader.peek

/-- The flags by their letters. -/
def flags : List Char :=
  ['i', 'm', 's', 'U', 'u', 'R', 'x']

/-- The modes after flags are set, and those behind a minus sign cleared. Each flag stands there once, and
a minus sign only in front of a flag. -/
def change? (m : Modes) (text : List Char) : Option Modes :=
  let on := text.takeWhile (· ≠ '-')
  let off := text.drop (on.length + 1)
  let change (flag : Char) (old : Bool) : Bool := on.contains flag || old && !off.contains flag
  if (on ++ off).all flags.contains && (on ++ off).eraseDups.length = (on ++ off).length &&
      (text.length = on.length || !off.isEmpty) then
    some { unicode := change 'u' m.unicode, spaced := change 'x' m.spaced }
  else none

end Modes

end NetPack.Pattern
