import Workbench.Diagnostic
import Workbench.Number.Decimal
import Workbench.Text.Blank

/-!
# Shapes of compiler messages

Compilers write a message and its place in one of a few shapes, which may stand anywhere in a line:

* `located` : `hello.cple:5:10: error: message`;
* `line` : `line 5: message`;
* `errorAt` : `error at line 5, column 10: message`, the column being optional;
* `called` : `hello.cple(5): warning: message`;
* `errorLine` : `error: line 5: message`.

Words are read in upper and lower case. Each shape is read from left to right without a choice: its
first occurrence in the line counts (`Shape.find`), and if that one cannot be used the shape says
nothing (`Occurrence.diagnostic?`). The message is the rest of the line.
-/

namespace Workbench.Diagnostic

open Text (isBlank isDigit trim)

/-- What a shape says where it occurs, still as text. -/
structure Occurrence where
  line : List Char
  column : Option (List Char) := none
  severity : Severity := .error
  message : List Char
  deriving DecidableEq, Repr

/-- The diagnostic of an occurrence. Lines count from one in messages, so there is no line zero; the
message must not be blank, and a number must not have too many digits. -/
def Occurrence.diagnostic? (o : Occurrence) : Option Diagnostic :=
  let column? := match o.column with
    | none => some 0
    | some digits => Number.read? digits
  let message := trim o.message
  match Number.read? o.line, column? with
  | some (line + 1), some column =>
    if message = [] then none
    else some { line, column, severity := o.severity, message := String.ofList message }
  | _, _ => none

/-! ## Parts of a shape -/

/-- Is a character the letter of a word, in upper or lower case? An `i` may also be the dotted
capital or the dotless small one. -/
def isLetter (letter c : Char) : Bool :=
  c.toLower = letter || (letter = 'i' && (c = '\u0130' || c = '\u0131'))

/-- The rest of a text after a word. -/
def afterWord : List Char → List Char → Option (List Char)
  | [], s => some s
  | _ :: _, [] => none
  | letter :: word, c :: s => if isLetter letter c then afterWord word s else none

/-- The rest of a text after a character. -/
def afterChar (x : Char) : List Char → Option (List Char)
  | [] => none
  | c :: s => if c = x then some s else none

/-- The rest of a text after any number of blanks. -/
def afterBlanks (s : List Char) : List Char := s.dropWhile isBlank

/-- The rest of a text after at least one blank. -/
def afterGap : List Char → Option (List Char)
  | [] => none
  | c :: s => if isBlank c then some (afterBlanks s) else none

/-- A row of digits at the beginning of a text, and the rest. -/
def digits? (s : List Char) : Option (List Char × List Char) :=
  match s.takeWhile isDigit with
  | [] => none
  | ds => some (ds, s.dropWhile isDigit)

/-- A severity at the beginning of a text, and the rest. Only plain letters make a warning. -/
def severity? (s : List Char) : Option (Severity × List Char) :=
  match afterWord "error".toList s with
  | some rest => some (.error, rest)
  | none =>
    let word := "warning".toList
    match afterWord word s with
    | some rest => some (if (s.take word.length).map Char.toLower = word then .warning else .error, rest)
    | none => none

/-- The message that a text begins with, up to the end of its line. Blanks are passed over; where
there is nothing else, the last one that does not end a line is the message. -/
def message? (s : List Char) : Option (List Char) :=
  match afterBlanks s with
  | [] => (s.filter (· ≠ '\n')).getLast?.map ([·])
  | rest => some (rest.takeWhile (· ≠ '\n'))

/-- The end of a shape: a severity, a colon and a message. -/
def judged? (s : List Char) : Option (Severity × List Char) := do
  let (severity, s) ← severity? (afterBlanks s)
  let s ← afterChar ':' s
  let message ← message? s
  return (severity, message)

/-- The word `line`, a gap and a number. -/
def lineNumber? (s : List Char) : Option (List Char × List Char) := do
  let s ← afterWord "line".toList s
  let s ← afterGap s
  digits? s

/-- A comma, the word `column` and a number, if they are there. -/
def columnNumber? (s : List Char) : Option (List Char × List Char) := do
  let s ← afterChar ',' s
  let s ← afterWord "column".toList (afterBlanks s)
  let s ← afterGap s
  digits? s

/-! ## Shapes -/

/-- Two numbers after colons, and a judgement. -/
def readLocated (s : List Char) : Option Occurrence := do
  let (line, s) ← digits? s
  let s ← afterChar ':' s
  let (column, s) ← digits? s
  let s ← afterChar ':' s
  let (severity, message) ← judged? s
  return { line, column := some column, severity, message }

/-- A number in parentheses, of which the first one is passed, and a judgement. -/
def readCalled (s : List Char) : Option Occurrence := do
  let (line, s) ← digits? s
  let s ← afterChar ')' s
  let s ← afterChar ':' s
  let (severity, message) ← judged? s
  return { line, severity, message }

/-- The word `line` with a number, a colon and a message. -/
def readLine (s : List Char) : Option Occurrence := do
  let (line, s) ← lineNumber? s
  let s ← afterChar ':' s
  let message ← message? s
  return { line, message }

/-- The words `error at`, a line and perhaps a column, a colon and a message. -/
def readErrorAt (s : List Char) : Option Occurrence := do
  let s ← afterWord "error".toList s
  let s ← afterGap s
  let s ← afterWord "at".toList s
  let s ← afterGap s
  let (line, s) ← lineNumber? s
  let (column, s) := match columnNumber? s with
    | some (column, rest) => (some column, rest)
    | none => (none, s)
  let s ← afterChar ':' s
  let message ← message? s
  return { line, column, message }

/-- The word `error`, a colon, a line, a colon and a message. -/
def readErrorLine (s : List Char) : Option Occurrence := do
  let s ← afterWord "error".toList s
  let s ← afterChar ':' s
  readLine (afterBlanks s)

/-- The first place from which a shape can be read. -/
def firstAt (read : List Char → Option Occurrence) : List Char → Option Occurrence
  | [] => read []
  | c :: s =>
    match read (c :: s) with
    | some o => some o
    | none => firstAt read s

/-- The first separator after which a shape can be read, among those that follow another character;
`named` says whether one has just been passed. -/
def firstAfter (separator : Char) (read : List Char → Option Occurrence) (named : Bool) :
    List Char → Option Occurrence
  | [] => none
  | c :: s =>
    if c = separator then
      match if named then read s else none with
      | some o => some o
      | none => firstAfter separator read false s
    else firstAfter separator read true s

inductive Shape
  | located
  | line
  | errorAt
  | called
  | errorLine
  deriving DecidableEq, Repr

namespace Shape

/-- All shapes. A line may have several of them; then the first one here that can be used counts. -/
def all : List Shape := [.located, .line, .errorAt, .called, .errorLine]

/-- The first occurrence of a shape in a line. -/
def find : Shape → List Char → Option Occurrence
  | .located => firstAfter ':' readLocated false
  | .line => firstAt readLine
  | .errorAt => firstAt readErrorAt
  | .called => firstAfter '(' readCalled false
  | .errorLine => firstAt readErrorLine

end Shape

/-- The diagnostic of a line: that of the first shape whose first occurrence can be used. -/
def ofLine? (shapes : List Shape) (line : String) : Option Diagnostic :=
  shapes.findSome? fun shape => (shape.find line.toList).bind Occurrence.diagnostic?

end Workbench.Diagnostic
