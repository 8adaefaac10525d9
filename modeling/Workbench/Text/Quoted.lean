import Workbench.Text.CodePoint
import Workbench.Text.Printable

/-!
# Quoted texts

`quoted s` writes a text between quotes so that it can be read back by eye in a message or a log:
single quotes unless the text holds single quotes only, a backslash before the quote and the
backslash, short escapes for tab, line feed and carriage return, and `\x`, `\u` or `\U` with the
code point in hexadecimal for whatever does not print. `quotedAscii s` escapes all that is not
ASCII as well. A text may be given by its code points; half of a surrogate pair never prints.
-/

namespace Workbench.Text

/-- The lower-case hexadecimal digit of a number below sixteen. -/
def hexDigit (n : Nat) : Char := (Nat.digitChar n)

/-- `n` in hexadecimal with at least `width` digits, its last `width` digits for a wider number. -/
def hex : Nat → Nat → List Char
  | 0, _ => []
  | width + 1, n => hex width (n / 16) ++ [hexDigit (n % 16)]

/-- A code point as a numeric escape of the shortest of the three widths. -/
def numericEscape (n : Nat) : List Char :=
  if n < 0x100 then '\\' :: 'x' :: hex 2 n
  else if n < 0x10000 then '\\' :: 'u' :: hex 4 n
  else '\\' :: 'U' :: hex 8 n

/-- One character of a quoted text; `plain` says which characters may stand for themselves. -/
def quotedChar (plain : Char → Bool) (quote c : Char) : List Char :=
  if c = quote ∨ c = '\\' then ['\\', c]
  else if c = '\t' then ['\\', 't']
  else if c = '\n' then ['\\', 'n']
  else if c = '\r' then ['\\', 'r']
  else if plain c then [c]
  else numericEscape c.toNat

/-- One code point of a quoted text. -/
def quotedPoint (plain : Char → Bool) (quote : Char) : CodePoint → List Char
  | .char c => quotedChar plain quote c
  | .half n => numericEscape (CodePoint.half n).toNat

/-- The quote to use: a double one for a text that has single quotes but no double ones. -/
def quoteFor (s : CodePoints) : Char := if .char '\'' ∈ s ∧ .char '"' ∉ s then '"' else '\''

namespace CodePoints

/-- A text between quotes, with the characters that are not `plain` escaped. -/
def quotedBy (plain : Char → Bool) (s : CodePoints) : String :=
  let quote := quoteFor s
  String.ofList (quote :: s.flatMap (quotedPoint plain quote) ++ [quote])

def quoted (s : CodePoints) : String := s.quotedBy isPrintable

/-- A text between quotes in ASCII only. -/
def quotedAscii (s : CodePoints) : String :=
  s.quotedBy fun c => isPrintable c && c.toNat < 128

end CodePoints

def quoted (s : String) : String := (CodePoints.ofString s).quoted

/-- A list of texts between brackets, each one quoted. -/
def quotedList (texts : List CodePoints) : String :=
  "[" ++ ", ".intercalate (texts.map CodePoints.quoted) ++ "]"

end Workbench.Text
