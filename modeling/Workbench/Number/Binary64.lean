/-!
# Binary floating-point numbers of 64 bits

A finite number is `± m · 2 ^ e`. The conversions work on the bits and on exact whole numbers, so
that they can be reasoned about.

* `decode bits` : sign and magnitude;
* `ofRatio negative num den` : the number nearest to `± num / den`, of two equally near ones that
  with the even significand;
* `ofDecimal negative digits exponent` : the number nearest to `± digits · 10 ^ exponent`.
-/

namespace Workbench.Number

/-- What the bits of a number mean. -/
inductive Magnitude
  | finite (significand : Nat) (exponent : Int)
  | infinite
  | notANumber
  deriving DecidableEq, Repr

/-- A number taken apart: is its sign bit set, and what is its magnitude? -/
structure Decoded where
  negative : Bool
  magnitude : Magnitude
  deriving DecidableEq, Repr

def decode (bits : UInt64) : Decoded :=
  let n := bits.toNat
  let biased : Nat := n / Nat.pow 2 52 % Nat.pow 2 11
  let fraction : Nat := n % Nat.pow 2 52
  { negative := Nat.pow 2 63 ≤ n
    magnitude :=
      if biased = 2047 then if fraction = 0 then .infinite else .notANumber
      else if biased = 0 then .finite fraction (-1074)
      else .finite (Nat.pow 2 52 + fraction) ((biased : Int) - 1075) }

/-- The whole number nearest to `num / den`, of two equally near ones the even one. -/
def roundDiv (num den : Nat) : Nat :=
  let q := num / den
  let twice := 2 * (num % den)
  if twice < den then q
  else if den < twice then q + 1
  else q + q % 2

def signBit (negative : Bool) : Nat := if negative then Nat.pow 2 63 else 0

def infinityBits : Nat := 2047 * Nat.pow 2 52

def notANumberBits : Nat := infinityBits + Nat.pow 2 51

/-- The magnitude bits of the number nearest to `num / den`, for a positive ratio. The significand
is taken with 53 bits, or with as many as the least exponent leaves. -/
def ratioBits (num den : Nat) : Nat :=
  let rough : Int := (num.log2 : Int) - den.log2
  -- `rough` or one less is the exponent of the leading bit
  let leading : Int :=
    if num * Nat.pow 2 (-rough).toNat < den * Nat.pow 2 rough.toNat then rough - 1 else rough
  let e : Int := max (leading - 52) (-1074)
  let m := roundDiv (num * Nat.pow 2 (-e).toNat) (den * Nat.pow 2 e.toNat)
  -- the significand's leading bit adds one to the exponent field, also after a carry
  let bits := (e + 1074).toNat * Nat.pow 2 52 + m
  min bits infinityBits

def ofRatio (negative : Bool) (num den : Nat) : UInt64 :=
  UInt64.ofNat (signBit negative + if num = 0 then 0 else ratioBits num den)

/-- The number nearest to a decimal one. Exponents far outside the range are cut short, so that
no power of ten grows without bound. -/
def ofDecimal (negative : Bool) (digits : Nat) (exponent : Int) : UInt64 :=
  let size : Int := (digits.log2 : Int) / 4 + exponent
  if digits = 0 then UInt64.ofNat (signBit negative)
  else if 400 < size then UInt64.ofNat (signBit negative + infinityBits)
  else if (digits.log2 : Int) + exponent < -400 then UInt64.ofNat (signBit negative)
  else ofRatio negative (digits * Nat.pow 10 exponent.toNat) (Nat.pow 10 (-exponent).toNat)

/-- The number nearest to a whole one. -/
def ofInt (n : Int) : UInt64 := ofRatio (n < 0) n.natAbs 1

end Workbench.Number
