import Workbench.Text.Utf8

/-!
# Code points

A code point is a character or one of the halves by which UTF-16 writes a character beyond U+FFFF.
Half a pair is no character, but JSON can name it alone. So a text that comes from JSON is a row of
code points.

* `CodePoints.ofString` : the code points of a text;
* `CodePoints.toString?` : the text of code points that are all characters
  (`toString?_ofString`);
* `CodePoints.shown` : the text of any code points, with the replacement character for each half
  (`shown_ofString`);
* `CodePoints.passed s` : what the system is given for a text. A text is passed as its UTF-8, and of
  the halves only those that stand for bytes can be passed.
-/

namespace Workbench.Text

inductive CodePoint
  | char (c : Char)
  /-- the half with the number U+D800 + `n` -/
  | half (n : Fin 0x800)
  deriving DecidableEq, Repr

namespace CodePoint

/-- The number of a code point. -/
def toNat : CodePoint → Nat
  | .char c => c.toNat
  | .half n => 0xD800 + n

/-- The code point with a number. -/
def ofNat (n : Nat) : CodePoint :=
  if h : 0xD800 ≤ n ∧ n < 0xE000 then .half ⟨n - 0xD800, by omega⟩ else .char (Char.ofNat n)

def char? : CodePoint → Option Char
  | .char c => some c
  | .half _ => none

/-- Is a code point half of a pair? -/
def isHalf (c : CodePoint) : Bool := c.char?.isNone

def shown : CodePoint → Char
  | .char c => c
  | .half _ => '\uFFFD'

/-- The byte that a half stands for, as those from U+DC80 to U+DCFF do. A name that is not UTF-8 is
read with such halves in the place of its bad bytes. -/
def byte? : CodePoint → Option UInt8
  | .char _ => none
  | .half n => if 0x480 ≤ n.val ∧ n.val < 0x500 then some (UInt8.ofNat (n.val - 0x400)) else none

/-- Can a code point not be passed to the system? -/
def isLost (c : CodePoint) : Bool := c.isHalf && c.byte?.isNone

/-- The bytes that are passed for a code point. -/
def bytes : CodePoint → List UInt8
  | .char c => Utf8.encode c.toString
  | c => c.byte?.toList

instance : Coe Char CodePoint := ⟨.char⟩

end CodePoint

/-- A run of halves in a text. -/
structure Halves where
  /-- how many code points stand before it -/
  offset : Nat
  length : Nat
  first : CodePoint
  deriving DecidableEq, Repr

abbrev CodePoints := List CodePoint

namespace CodePoints

/-- The code points of a text. -/
def ofString (s : String) : CodePoints := s.toList.map .char

instance : Coe String CodePoints := ⟨ofString⟩

/-- The text of code points, if they are all characters. -/
def toString? (s : CodePoints) : Option String := (s.mapM CodePoint.char?).map String.ofList

/-- The text of code points, with the replacement character for each half. -/
def shown (s : CodePoints) : String := String.ofList (s.map CodePoint.shown)

/-- The halves of a text from the first one that cannot be passed, as far as they run. -/
def lost? (s : CodePoints) : Option Halves :=
  match s.dropWhile (!·.isLost) with
  | [] => none
  | c :: rest =>
    some { offset := (s.takeWhile (!·.isLost)).length
           length := (rest.takeWhile (·.isHalf)).length + 1
           first := c }

end CodePoints

/-- What the system is given for a text. -/
inductive Passed
  | text (s : String)
  /-- bytes, as some halves stand for such -/
  | bytes (bs : List UInt8)
  /-- nothing, as some halves stand for no byte -/
  | never (h : Halves)
  deriving DecidableEq, Repr

namespace CodePoints

def passed (s : CodePoints) : Passed :=
  match s.toString?, s.lost? with
  | some t, _ => .text t
  | none, some h => .never h
  | none, none => .bytes (s.flatMap CodePoint.bytes)

theorem mapM_char? (s : List Char) : (s.map CodePoint.char).mapM CodePoint.char? = some s := by
  induction s with
  | nil => rfl
  | cons c s ih => simp [CodePoint.char?, ih]

@[simp] theorem toString?_ofString (s : String) : (ofString s).toString? = some s := by
  rw [toString?, ofString, mapM_char?]
  simp

@[simp] theorem shown_ofString (s : String) : (ofString s).shown = s := by
  have h : CodePoint.shown ∘ CodePoint.char = id := rfl
  simp [shown, ofString, h]

/-- Different texts have different code points. -/
theorem ofString_inj {s t : String} : ofString s = ofString t ↔ s = t := by
  constructor
  · intro h
    have := congrArg shown h
    simpa using this
  · intro h
    rw [h]

end CodePoints

end Workbench.Text
