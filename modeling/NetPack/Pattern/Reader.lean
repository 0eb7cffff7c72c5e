/-!
# Readers

A reader takes a value off the front of a text, or fails. What it leaves is never longer than the text it
was given, and this is part of its type. So a reader that repeats a step on what the last step left ends,
if each step is given one character less (`loop`).
-/

namespace NetPack.Pattern

/-- Takes a value off the front of a text. -/
def Reader (α : Type) : Type :=
  (s : List Char) → Option (α × { r : List Char // r.length ≤ s.length })

namespace Reader

variable {α σ : Type}

instance : Monad Reader where
  pure a := fun s => some (a, ⟨s, Nat.le_refl _⟩)
  bind x f := fun s =>
    match x s with
    | none => none
    | some (a, r) =>
      match f a r.val with
      | none => none
      | some (b, r') => some (b, ⟨r'.val, Nat.le_trans r'.property r.property⟩)

/-- Reads a whole text. -/
def run (x : Reader α) (s : List Char) : Option α :=
  (x s).map Prod.fst

def fail : Reader α :=
  fun _ => none

/-- Goes on only if a condition holds. -/
def require (b : Bool) : Reader Unit :=
  if b then pure () else fail

/-- The next character. -/
def next : Reader Char
  | [] => none
  | c :: r => some (c, ⟨r, Nat.le_succ _⟩)

/-- The value that a reader would give; nothing is taken. -/
def lookAhead (x : Reader α) : Reader α :=
  fun s => (x s).map fun a => (a.1, ⟨s, Nat.le_refl _⟩)

/-- The value of a reader. If it fails, nothing is taken. -/
def optional (x : Reader α) : Reader (Option α) :=
  fun s =>
    match x s with
    | some (a, r) => some (some a, r)
    | none => some (none, ⟨s, Nat.le_refl _⟩)

/-- The character that comes next, if there is one. It is not taken. -/
def peek : Reader (Option Char) :=
  optional (lookAhead next)

/-- Takes one given character. -/
def expect (c : Char) : Reader Unit := do
  require ((← next) = c)

/-- Takes the next character if it is the given one. -/
def nextIf (c : Char) : Reader Bool := do
  return (← optional (expect c)).isSome

/-- The characters up to the first one that is not in a class. -/
def takeWhile (p : Char → Bool) : Reader (List Char) :=
  fun s => some (s.takeWhile p, ⟨s.dropWhile p, (List.dropWhile_sublist p).length_le⟩)

/-- Repeats a step, with a state, until it gives a value or the text ends. Before each step something may
be skipped; each step begins with a character. -/
def loop (skip : σ → Reader Unit) (step : σ → Char → Reader (σ ⊕ α)) (atEnd : σ → Option α)
    (st : σ) (s : List Char) : Option (α × { r : List Char // r.length ≤ s.length }) :=
  match skip st s with
  | none => none
  | some (_, ⟨[], h⟩) => (atEnd st).map fun a => (a, ⟨[], h⟩)
  | some (_, ⟨c :: r, h⟩) =>
    match step st c r with
    | none => none
    | some (.inr a, ⟨r', h'⟩) => some (a, ⟨r', by simp only [List.length_cons] at h; omega⟩)
    | some (.inl st', ⟨r', h'⟩) =>
      match loop skip step atEnd st' r' with
      | none => none
      | some (a, ⟨r'', h''⟩) => some (a, ⟨r'', by simp only [List.length_cons] at h; omega⟩)
termination_by s.length
decreasing_by simp only [List.length_cons] at h; omega

end Reader

end NetPack.Pattern
