import Workbench.Failure

/-!
# Texts of a terminal library

Views are made of styled texts, which a library writes on a terminal. What it does with them is not
defined here: views are made with its operations, whatever they are, and what they rely on is what
is documented of them.

* `Span` : a style for some characters of a text;
* `Rich τ` : the operations on texts, and what can be seen of a text;
* `LawfulRich τ` : what is documented of the operations;
* `Rich.joinWith` : texts with a separator between each two.
-/

namespace Workbench

/-- A style for the characters from `start` to before `stop`. -/
structure Span where
  start : Int
  stop : Int
  style : String
  deriving DecidableEq, Repr

/-- The span moved by a number of characters. -/
def Span.shift (s : Span) (n : Int) : Span := { s with start := s.start + n, stop := s.stop + n }

/-- The texts of a library for terminals. A string that is to be shown may hold marks of styles in
brackets, and there is a failure if these cannot be read. -/
class Rich (τ : Type) where
  /-- the characters of a text -/
  plain : τ → List Char
  /-- the style of the whole of it -/
  style : τ → String
  /-- the styles of parts of it, in the order in which they were given -/
  spans : τ → List Span
  length : τ → Nat
  /-- a string as a text in one style -/
  of (s : String) (style : String := "") : τ
  /-- a text with a string after it, in a style of its own if this is not empty -/
  add (t : τ) (s : String) (style : String := "") : τ
  /-- one text after the other -/
  append (t u : τ) : τ
  /-- a text with a style for some of it; ends below zero count from the end of the text -/
  stylize (t : τ) (style : String) (start stop : Int) : τ
  /-- what is printed for a string -/
  read (s : String) : Except Failure τ
  /-- what a widget of the screen shows for a string -/
  display (s : String) : Except Failure τ

namespace Rich

/-- The characters that move the cursor: bell, backspace, vertical tab, form feed and carriage
return. -/
def movesCursor (c : Char) : Bool :=
  c.toNat = 7 || c.toNat = 8 || c.toNat = 11 || c.toNat = 12 || c.toNat = 13

/-- The characters of a string but those that move the cursor, which no text keeps. -/
def visible (s : String) : List Char := s.toList.filter (!movesCursor ·)

/-- The span of a style, none if the style is empty. -/
def spanIf (style : String) (start stop : Nat) : List Span :=
  if style = "" then [] else [{ start, stop, style }]

/-- A position that may count from the end of a text of so many characters. -/
def position (length : Nat) (i : Int) : Int := if i < 0 then length + i else i

/-- A string in which no mark begins: neither a style in brackets nor the name of a picture between
colons. -/
def Unmarked (s : String) : Prop := ∀ c ∈ s.toList, c ≠ '[' ∧ c ≠ ':'

/-- The text between brackets that opens a style. -/
structure IsStyle (style : String) : Prop where
  begins : ∃ c ∈ style.toList.head?, c.isLower = true
  inside : ∀ c ∈ style.toList, c ∉ ['[', ']', '\\', '=', ':']

section
variable {τ : Type} [Rich τ]

/-- The texts with a separator between each two. -/
def joinWith (separator : String) : List τ → τ
  | [] => of ""
  | t :: rest => rest.foldl (fun joined u => append (add joined separator) u) (append (of "") t)

end

end Rich

open Rich in
/-- What is documented of texts. -/
class LawfulRich (τ : Type) [Rich τ] : Prop where
  length_eq (t : τ) : length t = (plain t).length
  plain_of (s style : String) : plain (of s style : τ) = visible s
  style_of (s style : String) : Rich.style (of s style : τ) = style
  spans_of (s style : String) : spans (of s style : τ) = []
  plain_add (t : τ) (s style : String) : plain (add t s style) = plain t ++ visible s
  style_add (t : τ) (s style : String) : Rich.style (add t s style) = Rich.style t
  spans_add (t : τ) (s style : String) : spans (add t s style) =
    if s = "" then spans t
    else spans t ++ spanIf style (length t) (length t + (visible s).length)
  plain_append (t u : τ) : plain (append t u) = plain t ++ plain u
  style_append (t u : τ) : Rich.style (append t u) = Rich.style t
  /-- the style of the second text becomes a span, and its spans are moved -/
  spans_append (t u : τ) : spans (append t u) =
    spans t ++ spanIf (Rich.style u) (length t) (length t + length u) ++
      (spans u).map (·.shift (length t))
  plain_stylize (t : τ) (style : String) (start stop : Int) :
    plain (stylize t style start stop) = plain t
  style_stylize (t : τ) (style : String) (start stop : Int) :
    Rich.style (stylize t style start stop) = Rich.style t
  /-- a span that begins behind the text or has nothing in it is left out, and others are cut -/
  spans_stylize (t : τ) {style : String} (h : style ≠ "") (start stop : Int) :
    spans (stylize t style start stop) =
      if position (length t) start < length t ∧
          position (length t) start < position (length t) stop then
        spans t ++ [{
          start := position (length t) start
          stop := min (length t : Int) (position (length t) stop)
          style }]
      else spans t
  /-- a string without marks is printed as it is -/
  read_unmarked {s : String} (h : Unmarked s) : ∃ t : τ, read s = .ok t ∧ plain t = visible s
  /-- marks that open and close a style are not printed -/
  read_enclosed {style s : String} (hstyle : IsStyle style) (h : Unmarked s)
    (hescape : '\\' ∉ s.toList) : ∃ t : τ,
      read ("[" ++ style ++ "]" ++ s ++ "[/" ++ style ++ "]") = .ok t ∧ plain t = visible s
  /-- a string without marks is shown as it is -/
  display_unmarked {s : String} (h : Unmarked s) : ∃ t : τ, display s = .ok t ∧ plain t = visible s

end Workbench
