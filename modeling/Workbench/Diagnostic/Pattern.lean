import Workbench.Diagnostic.Shape
import Workbench.Record

/-!
# Patterns of compiler messages

A pattern describes texts by classes of characters, one pattern after another, choices and runs. A
text may have a pattern in several ways. They are tried in a fixed order: a run at its longest
first, an option with it before without it, and of two patterns the left one first. The first way at
the first place in a line counts.

* `Pattern.readings p s` : the ways in which a beginning of `s` has the pattern `p`, in this order;
* `Pattern.search p s` : the first one at the first place of `s` that has any;
* `Shape.pattern` : the shapes of messages as patterns;
* `Reading.occurrence` : what the marked parts of a reading say.
-/

namespace Workbench.Diagnostic

open Text (isBlank isDigit)

/-- The parts of a message that a pattern marks. -/
inductive Part
  | line
  | column
  | severity
  | message
  deriving DecidableEq, Repr

inductive Pattern
  /-- the empty text -/
  | nothing
  | char (accepts : Char → Bool)
  /-- characters of a class, as many as there are or fewer -/
  | star (accepts : Char → Bool)
  | both (p q : Pattern)
  | either (p q : Pattern)
  | option (p : Pattern)
  | part (name : Part) (p : Pattern)

/-- A way in which the beginning of a text has a pattern: its marked parts, and the rest. -/
structure Reading where
  parts : Record Part (List Char) := []
  rest : List Char
  deriving DecidableEq, Repr

namespace Pattern

/-- What may be left of a text after characters of a class, the most of them taken first. -/
def leftovers (accepts : Char → Bool) : List Char → List (List Char)
  | [] => [[]]
  | c :: s => if accepts c then leftovers accepts s ++ [c :: s] else [c :: s]

/-- The ways in which a beginning of a text has a pattern, in the order in which they are tried. -/
def readings : Pattern → List Char → List Reading
  | .nothing, s => [{ rest := s }]
  | .char _, [] => []
  | .char accepts, c :: s => if accepts c then [{ rest := s }] else []
  | .star accepts, s => (leftovers accepts s).map fun rest => { rest }
  | .both p q, s =>
    (p.readings s).flatMap fun r =>
      (q.readings r.rest).map fun t => { parts := r.parts ++ t.parts, rest := t.rest }
  | .either p q, s => p.readings s ++ q.readings s
  | .option p, s => p.readings s ++ [{ rest := s }]
  | .part name p, s =>
    (p.readings s).map fun r =>
      { parts := r.parts ++ [(name, s.take (s.length - r.rest.length))], rest := r.rest }

/-- The first reading at the first place of a text that has one. -/
def search (p : Pattern) : List Char → Option Reading
  | [] => (p.readings []).head?
  | c :: s => (p.readings (c :: s)).head?.or (p.search s)

/-! ## Common patterns -/

/-- One pattern after the other. -/
def row (ps : List Pattern) : Pattern := ps.foldr both nothing

def only (x : Char) : Pattern := char fun c => c = x

/-- At least one character of a class. -/
def plus (accepts : Char → Bool) : Pattern := both (char accepts) (star accepts)

/-- A word, in upper or lower case. -/
def word (w : String) : Pattern := row (w.toList.map fun letter => char (isLetter letter))

def number (name : Part) : Pattern := part name (plus isDigit)

/-- The rest of the line, without the blanks before it. -/
def message : Pattern := both (star isBlank) (part .message (plus fun c => c ≠ '\n'))

/-- A severity, a colon and a message. -/
def judgement : Pattern :=
  row [star isBlank, part .severity (either (word "error") (word "warning")), only ':', message]

def lineNumber : Pattern := row [word "line", plus isBlank, number .line]

/-- A comma, the word `column` and a number. -/
def columnNumber : Pattern :=
  row [only ',', star isBlank, word "column", plus isBlank, number .column]

end Pattern

open Pattern in
def Shape.pattern : Shape → Pattern
  | .located =>
    row [plus fun c => c ≠ ':', only ':', number .line, only ':', number .column, only ':',
      judgement]
  | .line => row [lineNumber, only ':', Pattern.message]
  | .errorAt =>
    row [word "error", plus isBlank, word "at", plus isBlank, lineNumber, option columnNumber,
      only ':', Pattern.message]
  | .called => row [plus fun c => c ≠ '(', only '(', number .line, only ')', only ':', judgement]
  | .errorLine => row [word "error", only ':', star isBlank, lineNumber, only ':', Pattern.message]

/-- The severity that a word names. Only the word `warning` in plain letters names a warning. -/
def severityOf (word : Option (List Char)) : Severity :=
  if word.any fun w => w.map Char.toLower = "warning".toList then .warning else .error

/-- What the marked parts of a reading say. -/
def Reading.occurrence (r : Reading) : Occurrence where
  line := (r.parts.get? .line).getD []
  column := r.parts.get? .column
  severity := severityOf (r.parts.get? .severity)
  message := (r.parts.get? .message).getD []

end Workbench.Diagnostic
