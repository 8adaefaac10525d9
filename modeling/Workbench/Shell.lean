import Workbench.Text.CodePoint
import Workbench.Text.Lines

/-!
# Words of a command line

* `quote w` : a word as it is typed, in single quotes unless all its characters are safe;
* `join ws` : a command as it is typed, the words with a space between each two; `line ws` : the
  same as it is shown;
* `split s` : the words of a typed text. Words end at a space, tab, carriage return or line feed;
  single quotes keep everything, double quotes everything but a backslash before a double quote or
  a backslash, and a backslash outside of quotes keeps the next character. Nothing else has a
  meaning: no comments, variables or operators.

`split` undoes `join`; the two share no definition. Words and texts are rows of code points, of which
halves are read as any other character that has no meaning.
-/

namespace Workbench.Shell

open Text (CodePoint CodePoints)

/-- What is wrong with a typed text. -/
inductive SplitError
  | openQuote
  | danglingEscape
  deriving DecidableEq, Repr

/-- The characters that no shell reads in a special way. -/
def isSafe (c : CodePoint) : Bool :=
  c.char?.any fun c => c.isAlphanum || c ∈ ['_', '@', '%', '+', '=', ':', ',', '.', '/', '-']

/-- A character between single quotes. A single quote has to leave them and stand between double
ones. -/
def quoteChar (c : CodePoint) : CodePoints := if c = '\'' then ['\'', '"', '\'', '"', '\''] else [c]

def quote (w : CodePoints) : CodePoints :=
  if w ≠ [] ∧ w.all isSafe then w else .char '\'' :: w.flatMap quoteChar ++ [.char '\'']

/-- The words of a command with a space between each two. -/
def join (words : List CodePoints) : CodePoints := Text.joinWith ' ' (words.map quote)

/-- A command as it is shown. -/
def line (words : List CodePoints) : String := (join words).shown

/-- The characters between words. -/
def isGap (c : CodePoint) : Bool := c = ' ' || c = '\t' || c = '\r' || c = '\n'

/-- Where a reader stands in a typed text, with the characters of the current word backwards. -/
inductive Mode
  | gap
  | word (read : CodePoints)
  | singleQuotes (read : CodePoints)
  | doubleQuotes (read : CodePoints)
  | escape (read : CodePoints)
  | escapeInQuotes (read : CodePoints)
  deriving DecidableEq, Repr

/-- The mode after a character that neither ends a word nor is part of a quoted passage. -/
def enter (read : CodePoints) (c : CodePoint) : Mode :=
  if c = '\\' then .escape read
  else if c = '\'' then .singleQuotes read
  else if c = '"' then .doubleQuotes read
  else .word (c :: read)

/-- The words of a typed text that is read in a mode. -/
def splitFrom : Mode → CodePoints → Except SplitError (List CodePoints)
  | .gap, [] => .ok []
  | .word read, [] => .ok [read.reverse]
  | .singleQuotes _, [] => .error .openQuote
  | .doubleQuotes _, [] => .error .openQuote
  | .escape _, [] => .error .danglingEscape
  | .escapeInQuotes _, [] => .error .danglingEscape
  | .gap, c :: s => if isGap c then splitFrom .gap s else splitFrom (enter [] c) s
  | .word read, c :: s =>
    if isGap c then (splitFrom .gap s).map (read.reverse :: ·) else splitFrom (enter read c) s
  | .singleQuotes read, c :: s =>
    splitFrom (if c = '\'' then .word read else .singleQuotes (c :: read)) s
  | .doubleQuotes read, c :: s =>
    splitFrom (if c = '"' then .word read
      else if c = '\\' then .escapeInQuotes read
      else .doubleQuotes (c :: read)) s
  | .escape read, c :: s => splitFrom (.word (c :: read)) s
  | .escapeInQuotes read, c :: s =>
    splitFrom (.doubleQuotes (if c = '"' ∨ c = '\\' then c :: read else c :: '\\' :: read)) s

/-- The words of a typed text. -/
def split (s : CodePoints) : Except SplitError (List CodePoints) := splitFrom .gap s

end Workbench.Shell
