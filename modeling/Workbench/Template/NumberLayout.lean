import Workbench.Number.Significant
import Workbench.Template.Layout

/-!
# Layout of a number

A whole number may be laid out in base two, eight, ten or sixteen, as the character that it stands
for, with places after the point, with an exponent, or in hundredths. The text is made of a sign, a
lead such as `0x`, digits in groups and a rest, and is then filled up to its width. Zeros after the
sign count as digits, and are grouped with them.

* `NumberText.of l subject n` : the parts of the text of `n`;
* `Layout.applyNumber l t` : the parts put together and filled up;
* `layOutNumber subject spec n` : both.
-/

namespace Workbench.Template

open Text (CodePoint CodePoints)

structure NumberText where
  lead : String := ""
  digits : List Char
  rest : CodePoints := []
  deriving DecidableEq, Repr

/-- The greatest number of places after the point. -/
def greatestPlaces : Nat := Nat.pow 2 31 - 1

namespace Layout

def signText (l : Layout) : CodePoints :=
  match l.sign with
  | some (.char '+') => "+"
  | some (.char ' ') => " "
  | _ => []

/-- How many digits stand together between separators. -/
def groupSize (l : Layout) : Nat := if l.kind ∈ CodePoints.ofString "boxX" then 4 else 3

/-- Digits with a separator wherever the digits after it make up full groups; `left` of them are
left. -/
def separated (separator : CodePoint) (size : Nat) : Nat → List Char → CodePoints
  | _, [] => []
  | left, c :: cs =>
    if 1 < left ∧ (left - 1) % size = 0 then
      .char c :: separator :: separated separator size (left - 1) cs
    else .char c :: separated separator size (left - 1) cs

/-- How many digits fill a width, with the separators between them. -/
def digitsFor (l : Layout) (width : Nat) : Nat :=
  if l.separator.isSome then width - (width - 1) / (l.groupSize + 1) else width

/-- Digits in groups, with as many zeros before them as fill a width. -/
def grouped (l : Layout) (width : Nat) (digits : List Char) : CodePoints :=
  let count := max digits.length (l.digitsFor width)
  let digits := List.replicate (count - digits.length) '0' ++ digits
  match l.separator with
  | none => digits.map .char
  | some separator => separated separator l.groupSize count digits

/-- The parts of a number put together and filled up to the width. -/
def applyNumber (l : Layout) (t : NumberText) : CodePoints :=
  let before := l.signText ++ CodePoints.ofString t.lead
  let width := l.width.getD 0
  let zeros := l.fill = .char '0' && l.align = .char '='
  let digits :=
    if t.digits = [] then []
    else l.grouped (if zeros then width - (before.length + t.rest.length) else 0) t.digits
  let missing := width - (before.length + digits.length + t.rest.length)
  let fill := fun n => List.replicate n l.fill
  let inside := if l.align = .char '=' then missing else 0
  let left :=
    if l.align = .char '>' then missing else if l.align = .char '^' then missing / 2 else 0
  fill left ++ before ++ fill inside ++ digits ++ t.rest ++ fill (missing - left - inside)

/-- The places after the point, with the point unless there are none. -/
def fraction (l : Layout) (places : List Char) : List Char :=
  if places = [] ∧ ¬ l.alternateForm then [] else '.' :: places

/-- An exponent with its sign and at least two digits. -/
def exponentText (mark : Char) (n : Nat) : List Char :=
  mark :: '+' :: ((if n < 10 then ['0'] else []) ++ Nat.toDigits 10 n)

/-- Places without the zeros at their end, which are kept in the alternate form. -/
def trimmed (l : Layout) (places : List Char) : List Char :=
  if l.alternateForm then places else (places.reverse.dropWhile (· = '0')).reverse

/-- The parts of a number with places after the point. -/
def positional (l : Layout) (n places : Nat) : NumberText :=
  { digits := Nat.toDigits 10 n
    rest := (l.fraction (List.replicate places '0')).map .char }

/-- The parts of a number with one digit before the point, with places after it and with an
exponent. -/
def withExponent (l : Layout) (mark : Char) (n places : Nat) : NumberText :=
  let (digits, exponent) := Number.significant (places + 1) n
  { digits := digits.take 1
    rest := (l.fraction (digits.drop 1) ++ exponentText mark exponent).map .char }

/-- The parts of a number with a few significant digits; it has an exponent if they do not reach to
the point. -/
def general (l : Layout) (mark : Char) (n count : Nat) : NumberText :=
  let (digits, exponent) := Number.significant count n
  let whole := if count ≤ exponent then 1 else exponent + 1
  let tail := if count ≤ exponent then exponentText mark exponent else []
  { digits := digits.take whole
    rest := (l.fraction (l.trimmed (digits.drop whole)) ++ tail).map .char }

/-- The parts of a whole number in a base, with the lead of the base in the alternate form. -/
def inBase (l : Layout) (lead : String) (base n : Nat) : NumberText :=
  { lead := if l.alternateForm then lead else "", digits := Nat.toDigits base n }

/-- What a layout asks for that a whole number cannot have, the first of several. -/
def misfitOfWhole? (l : Layout) : Option LayoutError :=
  if l.length.isSome then some .lengthOfWhole
  else if l.negativeZero then some .negativeZeroOfWhole
  else if l.kind ≠ .char 'c' then none
  else if l.sign.isSome then some .signOfCharacter
  else if l.alternateForm then some .alternateCharacter
  else none

/-- The parts of a whole number that is laid out as such. -/
def whole (l : Layout) (n : Nat) : Except LayoutError NumberText :=
  match l.misfitOfWhole? with
  | some e => .error e
  | none =>
    match l.kind with
    | .char 'b' => .ok (l.inBase "0b" 2 n)
    | .char 'o' => .ok (l.inBase "0o" 8 n)
    | .char 'x' => .ok (l.inBase "0x" 16 n)
    | .char 'X' =>
      let t := l.inBase "0X" 16 n
      .ok { t with digits := t.digits.map Char.toUpper }
    | .char 'c' =>
      if 0x10FFFF < n then .error .noCharacter
      else .ok { digits := [], rest := [CodePoint.ofNat n] }
    | _ => .ok (l.inBase "" 10 n)

/-- The parts of a number that is laid out as a floating-point one. There are six places if nothing
is said. -/
def floating (l : Layout) (n : Nat) : Except LayoutError NumberText :=
  let places := l.length.getD 6
  let x := Number.nearestWhole n
  if greatestPlaces < places then .error .tooLong
  else
    match l.kind with
    | .char 'e' => .ok (l.withExponent 'e' x places)
    | .char 'E' => .ok (l.withExponent 'E' x places)
    | .char 'g' => .ok (l.general 'e' x (max places 1))
    | .char 'G' => .ok (l.general 'E' x (max places 1))
    | .char '%' =>
      let t := l.positional (Number.nearestWhole (100 * x)) places
      .ok { t with rest := t.rest ++ [.char '%'] }
    | _ => .ok (l.positional x places)

end Layout

def NumberText.of (l : Layout) (subject : Subject) (n : Nat) : Except LayoutError NumberText :=
  if l.kind ∈ CodePoints.ofString "bcdnoxX" then l.whole n
  else if l.kind ∈ CodePoints.ofString "eEfFgG%" then l.floating n
  else .error (.unknownKind subject l.kind)

/-- A number laid out as described. -/
def layOutNumber (subject : Subject) (spec : CodePoints) (n : Nat) :
    Except LayoutError CodePoints := do
  let l ← Layout.read subject spec
  let t ← NumberText.of l subject n
  if greatestWidth < l.width.getD 0 then throw .tooWide
  return l.applyNumber t

end Workbench.Template
