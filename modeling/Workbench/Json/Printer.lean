import Workbench.Json.Reader

/-!
# Writing JSON

Values are written in ASCII, each item and each field on a line of its own, indented by two blanks a
level. A whole number with too many digits cannot be written, nor what has no JSON, nor a list or an
object that lies deeper than one could be read; then the text ends before it (`Written`).

* `write level v` : a value whose closing bracket stands at a level, in pieces of text. The level says
  how many lists and objects are around it;
* `render v` : the text of a value that stands alone.
-/

namespace Workbench.Json

open Settings (Value)
open Text (CodePoint CodePoints)

/-- Why a value is not written to its end. -/
inductive Obstacle
  /-- a whole number with too many digits -/
  | longNumber
  /-- what has no JSON -/
  | foreign (f : Settings.Foreign)
  /-- a list or an object that lies too deep -/
  | depth
  deriving DecidableEq, Repr

/-- A text in pieces, and what stands in the way of the rest of the value. -/
structure Written where
  pieces : List (List Char)
  obstacle? : Option Obstacle := none
  deriving DecidableEq, Repr

namespace Written

def text (w : Written) : List Char := w.pieces.flatten

/-- Is the whole value in the text? -/
def complete (w : Written) : Bool := w.obstacle?.isNone

/-- A text that is written without fail. -/
def all (text : List Char) : Written := { pieces := [text] }

/-- The value cannot be written any further. -/
def stuck (o : Obstacle) : Written := { pieces := [], obstacle? := some o }

/-- One text after another. Nothing follows a text that is not complete. -/
def append (a b : Written) : Written :=
  if a.complete then { pieces := a.pieces ++ b.pieces, obstacle? := b.obstacle? } else a

instance : Append Written := ⟨append⟩

end Written

/-- Four hexadecimal digits after `\u`. -/
def unicodeEscape (n : Nat) : List Char := '\\' :: 'u' :: Text.hex 4 n

def escape (c : Char) : List Char :=
  if c = '"' ∨ c = '\\' then ['\\', c]
  else if c = '\n' then ['\\', 'n']
  else if c = '\r' then ['\\', 'r']
  else if c = '\t' then ['\\', 't']
  else if c = '\x0c' then ['\\', 'f']
  else if c = '\x08' then ['\\', 'b']
  else if 0x20 ≤ c.toNat ∧ c.toNat ≤ 0x7E then [c]
  else if c.toNat < 0x10000 then unicodeEscape c.toNat
  else
    let n := c.toNat - 0x10000
    unicodeEscape (0xD800 + n / 0x400) ++ unicodeEscape (0xDC00 + n % 0x400)

def escapePoint : CodePoint → List Char
  | .char c => escape c
  | .half n => unicodeEscape (CodePoint.half n).toNat

def writeText (s : CodePoints) : List Char := '"' :: s.flatMap escapePoint ++ ['"']

/-- A number that is not whole, or one of the three words. -/
def writeFloat (bits : UInt64) : List Char :=
  match (Number.decode bits).magnitude with
  | .notANumber => "NaN".toList
  | .infinite => if (Number.decode bits).negative then "-Infinity".toList else "Infinity".toList
  | .finite _ _ => (Number.shortest bits).toList

def newLine (level : Nat) : List Char := '\n' :: List.replicate (2 * level) ' '

mutual

/-- A value whose closing bracket stands at a level. -/
def write (level : Nat) : Value → Written
  | .null => .all "null".toList
  | .bool true => .all "true".toList
  | .bool false => .all "false".toList
  | .int n =>
    match Number.text? n with
    | some t => .all t.toList
    | none => .stuck .longNumber
  | .float bits => .all (writeFloat bits)
  | .text s => .all (writeText s)
  | .list items =>
    if level < depthLimit then
      match items with
      | [] => .all ['[', ']']
      | v :: vs =>
        writeItems level ('[' :: newLine (level + 1)) (v :: vs) ++ .all (newLine level ++ [']'])
    else .stuck .depth
  | .object fields =>
    if level < depthLimit then
      match fields with
      | [] => .all ['\x7b', '\x7d']
      | f :: fs =>
        writeFields level ('\x7b' :: newLine (level + 1)) (f :: fs) ++
          .all (newLine level ++ ['\x7d'])
    else .stuck .depth
  | .foreign f => .stuck (.foreign f)

/-- The items of a list, with `lead` before the first one. What stands before a number is written
together with it. -/
def writeItems (level : Nat) (lead : List Char) : List Value → Written
  | [] => .all []
  | v :: rest =>
    let item := match v with
      | .int n =>
        match Number.text? n with
        | some t => .all (lead ++ t.toList)
        | none => .stuck .longNumber
      | v => .all lead ++ write (level + 1) v
    item ++ writeItems level (',' :: newLine (level + 1)) rest

/-- The fields of an object, with `lead` before the first one. -/
def writeFields (level : Nat) (lead : List Char) : List (CodePoints × Value) → Written
  | [] => .all []
  | (k, v) :: rest =>
    .all (lead ++ writeText k ++ [':', ' ']) ++ write (level + 1) v ++
      writeFields level (',' :: newLine (level + 1)) rest

end

/-- The text of a value that stands alone. -/
def render (v : Value) : Written := write 0 v

end Workbench.Json
