import Workbench.Number.Binary64

/-!
# Significant digits of whole numbers

* `nearestWhole n` : the floating-point number nearest to `n`, as the whole number that it is;
* `significant count n` : the first `count` decimal digits of `n`, the last one rounded, an exact
  half to the even one, and the exponent of the first.
-/

namespace Workbench.Number

/-- The floating-point number nearest to a whole one. It is whole as well; a number beyond all of
them stays as it is. -/
def nearestWhole (n : Nat) : Nat :=
  match (decode (ofRatio false n 1)).magnitude with
  | .finite m e => m * Nat.pow 2 e.toNat / Nat.pow 2 (-e).toNat
  | _ => n

/-- The first digits of a whole number, as many as are asked for, and the exponent of the first.
Rounding up may add a digit, which is a zero then. -/
def significant (count n : Nat) : List Char × Nat :=
  let digits := Nat.toDigits 10 n
  let missing := count - digits.length
  let rounded := Nat.toDigits 10 (roundDiv n (Nat.pow 10 (digits.length - count)))
  let kept := digits.length - (digits.length - count)
  (rounded.take count ++ List.replicate missing '0', digits.length - 1 + (rounded.length - kept))

end Workbench.Number
