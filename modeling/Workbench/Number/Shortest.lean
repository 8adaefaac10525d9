import Workbench.Number.Binary64

/-!
# The shortest decimal text of a floating-point number

The digits written are the fewest that read back as the same number, and of those the nearest to
it. A number from `10 ^ -4` to `10 ^ 16` is written positionally, with `.0` if it is whole; the
others have an exponent of at least two digits with its sign.

* `shortestDigits m e` : digits and decimal exponent of `m · 2 ^ e`;
* `shortest bits` : the text of a number.
-/

namespace Workbench.Number

/-- The interval of the ratios that round to a number, scaled by a common denominator. -/
structure Interval where
  /-- the number itself -/
  middle : Nat
  /-- half the distance to the next lower number -/
  below : Nat
  /-- half the distance to the next higher number -/
  above : Nat
  denominator : Nat
  /-- do the ends of the interval round to the number? -/
  closed : Bool

/-- The interval of `m · 2 ^ e`. The next lower number is half as far where the exponent drops. -/
def Interval.of (m : Nat) (e : Int) : Interval :=
  let unit := Nat.pow 2 (e - 2).toNat
  { middle := 4 * m * unit
    below := if m = Nat.pow 2 52 ∧ e ≠ -1074 then unit else 2 * unit
    above := 2 * unit
    denominator := Nat.pow 2 (2 - e).toNat
    closed := m % 2 = 0 }

/-- Does `num / den` lie in the interval? -/
def Interval.contains (i : Interval) (num den : Nat) : Bool :=
  let low := (i.middle - i.below) * den
  let high := (i.middle + i.above) * den
  let x := num * i.denominator
  if i.closed then low ≤ x && x ≤ high else low < x && x < high

/-- The exponent of the leading decimal digit of `num / den`, sought downwards from `start`. -/
def leadingExponent (num den : Nat) : Nat → Int → Int
  | 0, k => k
  | fuel + 1, k =>
    if den * Nat.pow 10 k.toNat ≤ num * Nat.pow 10 (-k).toNat then k
    else leadingExponent num den fuel (k - 1)

/-- The point of the grid `10 ^ k` that rounds to the number and is nearest to it, if there is
one. -/
def Interval.gridPoint? (i : Interval) (k : Int) : Option Nat :=
  let num := i.middle * Nat.pow 10 (-k).toNat
  let den := i.denominator * Nat.pow 10 k.toNat
  let scale := fun d => (d * Nat.pow 10 k.toNat, Nat.pow 10 (-k).toNat)
  let low := num / den
  let lowFits := i.contains (scale low).1 (scale low).2
  let highFits := i.contains (scale (low + 1)).1 (scale (low + 1)).2
  if lowFits && highFits then some (roundDiv num den)
  else if lowFits then some low
  else if highFits then some (low + 1)
  else none

/-- The first grid with a point that rounds to the number, from coarse to fine. -/
def Interval.firstPoint (i : Interval) : Nat → Int → Nat × Int
  | 0, k => (i.middle / i.denominator, k)
  | fuel + 1, k =>
    match i.gridPoint? k with
    | some d => (d, k)
    | none => i.firstPoint fuel (k - 1)

/-- The shortest digits `d` and the exponent `k` such that `d · 10 ^ k` reads back as the positive
number `m · 2 ^ e`. -/
def shortestDigits (m : Nat) (e : Int) : Nat × Int :=
  let i := Interval.of m e
  let top := leadingExponent i.middle i.denominator 640 309
  i.firstPoint 18 top

/-- Digits without the zeros at their end, and the exponent that makes up for them. -/
def dropZeros : Nat → Nat → Int → Nat × Int
  | 0, d, k => (d, k)
  | fuel + 1, d, k => if d % 10 = 0 then dropZeros fuel (d / 10) (k + 1) else (d, k)

/-- How decimal numbers are laid out. -/
structure Layout where
  /-- the least position of the point, counted from before the first digit, that is positional -/
  leastPoint : Int
  /-- the greatest such position -/
  greatestPoint : Int
  /-- the least number of digits of an exponent -/
  exponentWidth : Nat

/-- Positional from one ten-thousandth to below ten to the sixteenth. -/
def standardLayout : Layout := { leastPoint := -3, greatestPoint := 16, exponentWidth := 2 }

/-- The digits of a whole number, padded with zeros on the left. -/
def paddedDigits (width n : Nat) : List Char :=
  let ds := Nat.toDigits 10 n
  List.replicate (width - ds.length) '0' ++ ds

/-- The text of `d · 10 ^ k`. -/
def Layout.write (l : Layout) (d : Nat) (k : Int) : List Char :=
  let ds := Nat.toDigits 10 d
  let point : Int := ds.length + k
  if l.leastPoint ≤ point ∧ point ≤ l.greatestPoint then
    if point ≤ 0 then '0' :: '.' :: (List.replicate (-point).toNat '0' ++ ds)
    else if 0 ≤ k then ds ++ List.replicate k.toNat '0' ++ ['.', '0']
    else ds.take point.toNat ++ '.' :: ds.drop point.toNat
  else
    let e := point - 1
    let fraction := if ds.length = 1 then [] else '.' :: ds.drop 1
    ds.take 1 ++ fraction ++ 'e' :: (if e < 0 then '-' else '+') ::
      paddedDigits l.exponentWidth e.natAbs

def shortest (bits : UInt64) : String :=
  let x := decode bits
  let sign := if x.negative then "-" else ""
  match x.magnitude with
  | .notANumber => "nan"
  | .infinite => sign ++ "inf"
  | .finite 0 _ => sign ++ "0.0"
  | .finite m e =>
    let (d, k) := shortestDigits m e
    let (d, k) := dropZeros 20 d k
    sign ++ String.ofList (standardLayout.write d k)

end Workbench.Number
