import Workbench.View.Rich

/-!
# Styled texts

A styled text is what can be seen of a text: its characters, the style for the whole of it and the
styles for spans of it, in the order in which they were given. These are texts to make views of.

* `StyledText.of s style` : a string as a text in one style;
* `t.add s style`, `t ++ u`, `t.stylize style start stop` : texts with more text and more styles;
* `StyledText.read s` : a string with marks of styles. Escaped brackets and names of pictures are
  not read.
-/

namespace Workbench

open Rich (visible spanIf)

@[ext] structure StyledText where
  plain : List Char := []
  style : String := ""
  spans : List Span := []
  deriving DecidableEq, Repr

namespace StyledText

def of (s : String) (style : String := "") : StyledText := { plain := visible s, style }

def length (t : StyledText) : Nat := t.plain.length

def add (t : StyledText) (s : String) (style : String := "") : StyledText :=
  if s = "" then t
  else
    { t with
      plain := t.plain ++ visible s
      spans := t.spans ++ spanIf style t.length (t.length + (visible s).length) }

/-- One text after the other. The style of the second becomes a span. -/
def append (t u : StyledText) : StyledText :=
  { plain := t.plain ++ u.plain
    style := t.style
    spans := t.spans ++ spanIf u.style t.length (t.length + u.length) ++
      u.spans.map (·.shift t.length) }

instance : Append StyledText := ⟨append⟩

/-- The text with a style for a span, if the span is not empty and begins in the text. -/
def stylize (t : StyledText) (style : String) (start stop : Int) : StyledText :=
  let start := Rich.position t.length start
  let stop := Rich.position t.length stop
  if start < t.length ∧ start < stop then
    { t with spans := t.spans ++ [{ start, stop := min (t.length : Int) stop, style }] }
  else t

/-! ## Marks of styles -/

/-- How far a string with marks was read. -/
structure Reading where
  text : StyledText := {}
  /-- how many characters were read -/
  position : Nat := 0
  /-- the styles that were opened and not closed, each with where it begins, the last one first -/
  opened : List (String × Nat) := []
  /-- what was read of a mark, behind its bracket -/
  mark : Option (List Char) := none

namespace Reading

def addChars (r : Reading) (cs : List Char) : Reading :=
  { r with text := r.text.add (String.ofList cs) }

/-- A style is closed: it is that of all since it was opened. -/
def close (r : Reading) (style : String) (start : Nat) : Reading :=
  { r with
    text := { r.text with spans := r.text.spans ++ spanIf style start r.text.length }
    opened := r.opened.erase (style, start) }

/-- A mark was read to its end. -/
def finishMark (r : Reading) (mark : List Char) : Except Failure Reading :=
  let r := { r with mark := none }
  let start := toString (r.position - mark.length - 2)
  match mark with
  | ['/'] =>
    match r.opened with
    | (style, since) :: _ => .ok (r.close style since)
    | [] => .error (.markup ("closing tag '[/]' at position " ++ start ++ " has nothing to close"))
  | '/' :: name =>
    match r.opened.find? (·.1 = String.ofList name) with
    | some (style, since) => .ok (r.close style since)
    | none => .error (.markup ("closing tag '[" ++ String.ofList mark ++ "]' at position " ++ start ++
        " doesn't match any open tag"))
  | _ => .ok { r with opened := (String.ofList mark, r.text.length) :: r.opened }

def beginsMark (c : Char) : Bool := c.isLower || c = '#' || c = '/' || c = '@'

/-- The next character. A bracket that opens no mark is a character like others. -/
def next (r : Reading) (c : Char) : Except Failure Reading :=
  let r := { r with position := r.position + 1 }
  match r.mark with
  | none => .ok (if c = '[' then { r with mark := some [] } else r.addChars [c])
  | some mark =>
    if c = '[' then .ok { r.addChars ('[' :: mark) with mark := some [] }
    else if mark = [] then
      .ok (if beginsMark c then { r with mark := some [c] }
        else { r.addChars ['[', c] with mark := none })
    else if c = ']' then r.finishMark mark
    else .ok { r with mark := some (mark ++ [c]) }

/-- The text that was read. A mark that has no end is none. -/
def finish (r : Reading) : StyledText :=
  match r.mark with
  | none => r.text
  | some mark => (r.addChars ('[' :: mark)).text

end Reading

/-- A string with marks of styles. -/
def read (s : String) : Except Failure StyledText := do
  return (← s.toList.foldlM Reading.next {}).finish

instance : Rich StyledText where
  plain := plain
  style := style
  spans := spans
  length := length
  of s style := of s style
  add t s style := t.add s style
  append := append
  stylize := stylize
  read := read
  display := read

@[simp] theorem plain_append (t u : StyledText) : (t ++ u).plain = t.plain ++ u.plain := rfl

@[simp] theorem plain_of (s style : String) : (of s style).plain = visible s := rfl

@[simp] theorem plain_add (t : StyledText) (s style : String) :
    (t.add s style).plain = t.plain ++ visible s := by
  rw [add]
  split
  · next h => subst h; simp [visible]
  · rfl

@[simp] theorem plain_stylize (t : StyledText) (style : String) (start stop : Int) :
    (t.stylize style start stop).plain = t.plain := by
  simp only [stylize]
  split <;> rfl

end StyledText

end Workbench
