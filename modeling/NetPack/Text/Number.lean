/-!
# Numbers as text

Whether a text is written as a number: a sign, then decimal digits with a point among them, and an
exponent of ten; or, in upper or lower case, the word for what is infinite or not a number. Each of sign,
point and exponent can be left out, but there is a digit before the exponent and one in it.
-/

namespace NetPack.Text

/-- A text behind its sign. -/
def dropSign : List Char → List Char
  | '+' :: r => r
  | '-' :: r => r
  | s => s

/-- Whether a text is an exponent, or nothing. -/
def isExponent : List Char → Bool
  | [] => true
  | c :: r => (c = 'e' || c = 'E') && !(dropSign r).isEmpty && (dropSign r).all Char.isDigit

/-- Whether a text is a number without a sign. -/
def isDecimal (s : List Char) : Bool :=
  let whole := s.takeWhile Char.isDigit
  match s.drop whole.length with
  | '.' :: r =>
    let places := r.takeWhile Char.isDigit
    !(whole ++ places).isEmpty && isExponent (r.drop places.length)
  | r => !whole.isEmpty && isExponent r

def isNumber (s : List Char) : Bool :=
  let magnitude := dropSign s
  ["inf", "infinity", "nan"].contains (String.ofList (magnitude.map Char.toLower)) ||
    isDecimal magnitude

example : isNumber "+.5e-7".toList ∧ isNumber "1.".toList ∧ isNumber "-INF".toList ∧
    ¬ isNumber "+".toList ∧ ¬ isNumber ".".toList ∧ ¬ isNumber "+1e".toList ∧ ¬ isNumber "".toList := by
  decide +kernel

end NetPack.Text
