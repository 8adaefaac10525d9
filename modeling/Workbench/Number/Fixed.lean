import Workbench.Number.Shortest

/-!
# Numbers with two decimal places

`fixed2 bits` writes a floating-point number with two places after the point. The exact value is
rounded to the nearest hundredth, an exact half to the even one.
-/

namespace Workbench.Number

/-- A whole number of hundredths with its point. -/
def hundredths (n : Nat) : String :=
  toString (n / 100) ++ "." ++ String.ofList (paddedDigits 2 (n % 100))

/-- The text of a number to the nearest hundredth. -/
def fixed2 (bits : UInt64) : String :=
  let x := decode bits
  let sign := if x.negative then "-" else ""
  match x.magnitude with
  | .notANumber => "nan"
  | .infinite => sign ++ "inf"
  | .finite m e => sign ++ hundredths (roundDiv (100 * m * Nat.pow 2 e.toNat) (Nat.pow 2 (-e).toNat))

end Workbench.Number
