import Workbench.Text.CodePoint
import Workbench.Text.Digit

/-!
# Layout of a field

A field of a template may say how its value is laid out: a fill character and an alignment, a width,
a greatest length. The text of such a layout is `[[fill]align][sign][z][#][0][width][,|_][.length]
[kind]`, where only the kind `s` suits a text, and sign, `z`, `#`, `=` and the separators are known
but suit numbers only.

* `Subject` : what is to be laid out, as far as it decides about what is not said;
* `Layout.read subject spec` : the layout that a text describes;
* `Layout.apply l s` : the text `s` cut and padded;
* `layOut spec s` : both; an empty description leaves the text as it is.
-/

namespace Workbench.Template

open Text (CodePoint CodePoints)

inductive Subject
  | text
  | number
  | truth
  deriving DecidableEq, Repr

namespace Subject

def name : Subject → String
  | .text => "str"
  | .number => "int"
  | .truth => "bool"

/-- Where a value stands in its width if nothing is said. -/
def align (s : Subject) : Char := if s = .text then '<' else '>'

/-- The kind of layout if nothing is said. -/
def kind (s : Subject) : Char := if s = .text then 's' else 'd'

end Subject

/-- Why a text is no layout, or no layout for a value. -/
inductive LayoutError
  | tooManyDigits
  | bothSeparators
  | missingLength
  | notALayout (subject : Subject) (spec : CodePoints)
  | separatorFor (separator kind : CodePoint)
  | space
  | sign
  | negativeZero
  | alternateForm
  | equalsAlignment
  | unknownKind (subject : Subject) (kind : CodePoint)
  | tooWide
  /-- a whole number has no places to cut -/
  | lengthOfWhole
  | negativeZeroOfWhole
  | signOfCharacter
  | alternateCharacter
  | noCharacter
  /-- too many places are asked for -/
  | tooLong
  deriving DecidableEq, Repr

/-- The greatest number that a template may hold. -/
def greatestIndex : Nat := Nat.pow 2 63 - 1

/-- The greatest width to which a value is padded. A wider one would not fit into memory. -/
def greatestWidth : Nat := Nat.pow 2 31 - 1

/-- The value of a decimal digit, and nothing for any other code point. -/
def digit? (c : CodePoint) : Option Nat := c.char?.bind Text.digit?

/-- The number at the beginning of a text, read on from `n`, with the number of its digits and the
rest of the text; nothing if the number is too great. -/
def numberFrom (n count : Nat) : CodePoints → Option (Nat × Nat × CodePoints)
  | [] => some (n, count, [])
  | c :: s =>
    match digit? c with
    | none => some (n, count, c :: s)
    | some d =>
      if (greatestIndex - d) / 10 < n then none else numberFrom (10 * n + d) (count + 1) s

/-- The number at the beginning of a text, if the text begins with a digit. -/
def number? (s : CodePoints) : Except LayoutError (Option Nat × CodePoints) :=
  match numberFrom 0 0 s with
  | none => .error .tooManyDigits
  | some (_, 0, rest) => .ok (none, rest)
  | some (n, _ + 1, rest) => .ok (some n, rest)

/-- How a value is laid out. -/
structure Layout where
  fill : CodePoint := ' '
  align : CodePoint := '<'
  sign : Option CodePoint := none
  negativeZero : Bool := false
  alternateForm : Bool := false
  width : Option Nat := none
  separator : Option CodePoint := none
  length : Option Nat := none
  kind : CodePoint := 's'
  deriving DecidableEq, Repr

namespace Layout

def isAlign (c : CodePoint) : Bool :=
  c = .char '<' || c = .char '>' || c = .char '=' || c = .char '^'

def isSign (c : CodePoint) : Bool := c = .char ' ' || c = .char '+' || c = .char '-'

/-- The character at the beginning of a text if it is one of a class, and the rest. -/
def optional (p : CodePoint → Bool) : CodePoints → Option CodePoint × CodePoints
  | [] => (none, [])
  | c :: s => if p c then (some c, s) else (none, c :: s)

/-- Fill and alignment. The fill is given only together with an alignment. -/
def readAlign : CodePoints → Option CodePoint × Option CodePoint × CodePoints
  | c :: d :: s =>
    if isAlign d then (some c, some d, s)
    else if isAlign c then (none, some c, d :: s)
    else (none, none, c :: d :: s)
  | [c] => if isAlign c then (none, some c, []) else (none, none, [c])
  | [] => (none, none, [])

def readSeparator (s : CodePoints) : Except LayoutError (Option CodePoint × CodePoints) :=
  let (comma, s) := optional (· = .char ',') s
  let (underscore, s) := optional (· = .char '_') s
  if comma.isSome ∧ underscore.isSome then .error .bothSeparators
  else if underscore.isSome ∧ s.head? = some (.char ',') then .error .bothSeparators
  else .ok (comma.or underscore, s)

/-- The greatest length, after a point. -/
def readLength (s : CodePoints) : Except LayoutError (Option Nat × CodePoints) :=
  match s with
  | .char '.' :: s =>
    match number? s with
    | .error e => .error e
    | .ok (none, _) => .error .missingLength
    | .ok (some n, s) => .ok (some n, s)
  | s => .ok (none, s)

/-- May numbers of this kind have separators of thousands? -/
def takesSeparator (separator kind : CodePoint) : Bool :=
  kind ∈ CodePoints.ofString "defgEG%F\x00" ||
    (separator = .char '_' && kind ∈ CodePoints.ofString "boxX")

/-- The layout that a text describes for a subject. A zero before the width fills with zeros, and
puts those of a number after its sign. -/
def read (subject : Subject) (spec : CodePoints) : Except LayoutError Layout := do
  let (fill, align, s) := readAlign spec
  let (sign, s) := optional isSign s
  let (negativeZero, s) := optional (· = .char 'z') s
  let (alternateForm, s) := optional (· = .char '#') s
  let (zero, s) := if fill.isSome then (none, s) else optional (· = .char '0') s
  let (width, s) ← number? s
  let (separator, s) ← readSeparator s
  let (length, s) ← readLength s
  let kind ← match s with
    | [] => pure (.char subject.kind)
    | [c] => pure c
    | _ => throw (.notALayout subject spec)
  match separator with
  | some c => if !takesSeparator c kind then throw (.separatorFor c kind)
  | none => pure ()
  let usual := if zero.isSome && subject ≠ .text then '=' else subject.align
  return {
    fill := (fill.or zero).getD (.char ' '), align := align.getD (.char usual), sign,
    negativeZero := negativeZero.isSome, alternateForm := alternateForm.isSome,
    width, separator, length, kind }

/-- What a layout asks for that a text cannot have, the first of several. -/
def misfit? (l : Layout) : Option LayoutError :=
  if l.kind ≠ .char 's' then some (.unknownKind .text l.kind)
  else if l.sign = some (.char ' ') then some .space
  else if l.sign.isSome then some .sign
  else if l.negativeZero then some .negativeZero
  else if l.alternateForm then some .alternateForm
  else if l.align = .char '=' then some .equalsAlignment
  else none

/-- A text cut to its greatest length. -/
def cut (l : Layout) (s : CodePoints) : CodePoints :=
  match l.length with
  | none => s
  | some n => s.take n

/-- A text padded to its width. -/
def pad (l : Layout) (s : CodePoints) : CodePoints :=
  let missing := l.width.getD 0 - s.length
  let left := if l.align = .char '>' then missing else if l.align = .char '^' then missing / 2 else 0
  List.replicate left l.fill ++ s ++ List.replicate (missing - left) l.fill

/-- A text cut and padded. -/
def apply (l : Layout) (s : CodePoints) : CodePoints := l.pad (l.cut s)

/-- Is the width that a layout asks for too great? A width that a text has already does no harm. -/
def tooWide (l : Layout) (s : CodePoints) : Bool :=
  greatestWidth < l.width.getD 0 && (l.cut s).length < l.width.getD 0

end Layout

/-- A text laid out as described. -/
def layOut (spec s : CodePoints) : Except LayoutError CodePoints :=
  if spec = [] then .ok s
  else
    match Layout.read .text spec with
    | .error e => .error e
    | .ok l =>
      match l.misfit? with
      | some e => .error e
      | none => if l.tooWide s then .error .tooWide else .ok (l.apply s)

/-- A code point of an error text: itself if it is a visible one below `limit`, else its number. -/
def showPoint (limit : Nat) (c : CodePoint) : String :=
  if 32 < c.toNat ∧ c.toNat < limit then String.singleton c.shown
  else "\\x" ++ String.ofList (Nat.toDigits 16 c.toNat)

def LayoutError.message : LayoutError → CodePoints
  | .tooManyDigits => "Too many decimal digits in format string"
  | .bothSeparators => "Cannot specify both ',' and '_'."
  | .missingLength => "Format specifier missing precision"
  | .notALayout subject spec =>
    CodePoints.ofString "Invalid format specifier '" ++ spec ++
      CodePoints.ofString ("' for object of type '" ++ subject.name ++ "'")
  | .separatorFor separator kind =>
    CodePoints.ofString
      ("Cannot specify '" ++ showPoint 128 separator ++ "' with '" ++ showPoint 128 kind ++ "'.")
  | .space => "Space not allowed in string format specifier"
  | .sign => "Sign not allowed in string format specifier"
  | .negativeZero => "Negative zero coercion (z) not allowed in string format specifier"
  | .alternateForm => "Alternate form (#) not allowed in string format specifier"
  | .equalsAlignment => "'=' alignment not allowed in string format specifier"
  | .unknownKind subject kind =>
    CodePoints.ofString
      ("Unknown format code '" ++ showPoint 128 kind ++ "' for object of type '" ++
        subject.name ++ "'")
  | .tooWide => []
  | .lengthOfWhole => "Precision not allowed in integer format specifier"
  | .negativeZeroOfWhole =>
    "Negative zero coercion (z) not allowed in integer format specifier"
  | .signOfCharacter => "Sign not allowed with integer format specifier 'c'"
  | .alternateCharacter => "Alternate form (#) not allowed with integer format specifier 'c'"
  | .noCharacter => "%c arg not in range(0x110000)"
  | .tooLong => "precision too big"

end Workbench.Template
