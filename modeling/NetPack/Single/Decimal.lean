import NetPack.Single

/-!
# Shortest decimal text of a single-precision number

Among the decimals that read back as the number, the text takes one with the fewest digits and of
those the nearest one; of two equally near ones it takes the larger magnitude. The interval of
reals that read back as `m · 2 ^ q` reaches half-way to both neighbours and has its ends exactly
if `m` is even.
-/

namespace NetPack.Single

/-- The decimal `digits · 10 ^ exponent`. -/
structure Decimal where
  digits : Nat
  exponent : Int
deriving DecidableEq, Repr

/-- A positive number with the interval of the reals that round to it, all scaled by one factor
to integers: `low ≤ value ≤ high`, each over `unit`. -/
structure Cell where
  low : Nat
  value : Nat
  high : Nat
  unit : Nat
  closed : Bool
deriving DecidableEq, Repr

/-- The cell of a magnitude that is neither zero nor infinite. With `m` and `q` from the pattern,
four units are one `2 ^ q`; below a power of two the next number is only half as far away. -/
def cellOf (magnitude : Nat) : Cell :=
  let fraction := magnitude % 0x800000
  let field := magnitude / 0x800000
  let m := if field = 0 then fraction else fraction + 0x800000
  let below := if fraction = 0 ∧ 1 < field then 1 else 2
  let raise := Nat.pow 2 (field - 1)
  { low := (4 * m - below) * raise
    value := 4 * m * raise
    high := (4 * m + 2) * raise
    unit := Nat.pow 2 151
    closed := m % 2 = 0 }

namespace Cell

/-- Whether `n · 10 ^ e` lies in the cell. -/
def holds (c : Cell) (n : Nat) (e : Int) : Bool :=
  let x := n * Nat.pow 10 e.toNat * c.unit
  let s := Nat.pow 10 (-e).toNat
  if c.closed then c.low * s ≤ x ∧ x ≤ c.high * s else c.low * s < x ∧ x < c.high * s

/-- The number of steps of `10 ^ e` that fit below the value. -/
def floorAt (c : Cell) (e : Int) : Nat :=
  c.value * Nat.pow 10 (-e).toNat / (c.unit * Nat.pow 10 e.toNat)

/-- Whether `n + 1` steps of `10 ^ e` are at least as near to the value as `n` steps. -/
def nearerAbove (c : Cell) (n : Nat) (e : Int) : Bool :=
  (2 * n + 1) * Nat.pow 10 e.toNat * c.unit ≤ 2 * c.value * Nat.pow 10 (-e).toNat

/-- The nearest point of the grid `10 ^ e` that lies in the cell, if one does. -/
def pick (c : Cell) (e : Int) : Option Nat :=
  let n := c.floorAt e
  match c.holds n e, c.holds (n + 1) e with
  | true, true => some (if c.nearerAbove n e then n + 1 else n)
  | true, false => some n
  | false, true => some (n + 1)
  | false, false => none

/-- The first hit among the grids `10 ^ e`, `10 ^ (e - 1)`, …; the last one needs no test. -/
def shortest (c : Cell) (e : Int) : Nat → Decimal
  | 0 => ⟨c.floorAt e, e⟩
  | k + 1 => match c.pick e with
    | some n => ⟨n, e⟩
    | none => c.shortest (e - 1) k

end Cell

/-- The shortest decimal that reads back as a magnitude that is neither zero nor infinite. The first
grid is coarser than every single-precision number, the last one finer than the cells. No digits
end in a zero, since the next coarser grid would have held the same point. -/
def shortestDecimal (magnitude : Nat) : Decimal :=
  (cellOf magnitude).shortest 39 100

/-- How a finite number is written: with a point and no exponent if its leading digit stands at
one of the places `lowest` to `highest`, and else with the mark and the exponent. -/
structure Layout where
  lowest : Int
  highest : Int
  mark : Char
deriving DecidableEq, Repr

/-- Numbers from 0.0001 up to below 10^16 are written out. -/
def plain : Layout :=
  ⟨-4, 15, 'e'⟩

/-- Digits with a point behind the first `whole` of them, filled with zeros on either side. At
least one digit stands before the point and one behind it. -/
def withPoint (ds : List Char) (whole : Int) : List Char :=
  if whole ≤ 0 then
    ['0', '.'] ++ List.replicate (-whole).toNat '0' ++ ds
  else
    let w := whole.toNat
    let front := ds.take w ++ List.replicate (w - ds.length) '0'
    let back := ds.drop w
    front ++ '.' :: (if back.isEmpty then ['0'] else back)

/-- Leading digit, then the further digits behind a point if there are any, then the exponent. -/
def withExponent (l : Layout) (ds : List Char) (place : Int) : List Char :=
  let tail := ds.drop 1
  ds.take 1 ++ (if tail.isEmpty then [] else '.' :: tail) ++ l.mark :: (toString place).toList

def Decimal.layOut (l : Layout) (d : Decimal) : List Char :=
  let ds := Nat.toDigits 10 d.digits
  let place := d.exponent + ds.length - 1
  if l.lowest ≤ place ∧ place ≤ l.highest then withPoint ds (place + 1)
  else withExponent l ds place

/-- The text of a number in messages. -/
def text (x : Single) : String :=
  if x.isNaN then "NaN"
  else
    let body :=
      if x.magnitude = infinity then "inf".toList
      else if x.isZero then "0.0".toList
      else (shortestDecimal x.magnitude).layOut plain
    String.ofList (if x.isNegative then '-' :: body else body)

end NetPack.Single
