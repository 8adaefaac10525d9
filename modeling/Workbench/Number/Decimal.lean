import Workbench.Text.Digit

/-!
# Whole numbers in base ten

Whole numbers have no bound, but their text has: a number of more than `digitLimit` digits is
neither written nor read.

* `text n` : the digits of `n`, with a minus sign before those of a negative number;
* `text? n` : the same unless there are too many digits;
* `read? ds` : the number that a row of decimal digits writes, leading zeros included, unless there
  are too many digits.
-/

namespace Workbench.Number

/-- The greatest number of digits of a whole number in a text. -/
def digitLimit : Nat := 4300

/-- The least number with more digits than that. -/
def digitBound : Nat := Nat.pow 10 digitLimit

/-- A whole number in base ten. -/
def text (n : Int) : String := toString n

/-- A whole number in base ten, if its digits are within the limit. -/
def text? (n : Int) : Option String :=
  if n.natAbs < digitBound then some (text n) else none

/-- The number that a row of digits writes, if the digits are within the limit. -/
def read? (digits : List Char) : Option Nat :=
  if digits.length ≤ digitLimit then some (Text.value digits) else none

theorem text?_eq_some {n : Int} (h : n.natAbs < digitBound) : text? n = some (text n) :=
  if_pos h

theorem read?_eq_some {digits : List Char} (h : digits.length ≤ digitLimit) :
    read? digits = some (Text.value digits) := if_pos h

end Workbench.Number
