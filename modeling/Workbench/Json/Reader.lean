import Workbench.Record
import Workbench.Settings.Value

/-!
# Reading JSON

The reader takes the values of JSON and, besides, the words `NaN`, `Infinity` and `-Infinity`. An
object's names are unique: of two equal ones the later value counts, at the earlier place. Lists and
objects may be nested to a depth of `depthLimit`.

Each function returns what it read together with the rest of the text. An error names the rest at
which it was noticed by its length (`Stop`), and `read` turns that into the offset, line and column
of the whole text.
-/

namespace Workbench.Json

open Settings (Value)
open Text (CodePoint CodePoints)

inductive Reason
  | expectedValue
  | expectedName
  | expectedColon
  | expectedComma
  | controlCharacter
  | unterminatedText
  | badEscape
  | badUnicodeEscape
  | extraData
  | byteOrderMark
  deriving DecidableEq, Repr

def Reason.text : Reason → String
  | .expectedValue => "Expecting value"
  | .expectedName => "Expecting property name enclosed in double quotes"
  | .expectedColon => "Expecting ':' delimiter"
  | .expectedComma => "Expecting ',' delimiter"
  | .controlCharacter => "Invalid control character at"
  | .unterminatedText => "Unterminated string starting at"
  | .badEscape => "Invalid \\escape"
  | .badUnicodeEscape => "Invalid \\uXXXX escape"
  | .extraData => "Extra data"
  | .byteOrderMark => "Unexpected UTF-8 BOM (decode using utf-8-sig)"

/-- What encloses other values. -/
inductive Bracket
  | list
  | object
  deriving DecidableEq, Repr

/-- How deep lists and objects may be nested. -/
def depthLimit : Nat := 987

/-- Why reading stopped: something is wrong where `rest` characters were left, a whole number has too
many digits, or a list or object lies too deep. -/
inductive Stop
  | wrong (reason : Reason) (rest : Nat)
  | tooManyDigits (count : Nat)
  | tooDeep (bracket : Bracket)
  deriving DecidableEq, Repr

/-- What was read, and the rest of the text. -/
abbrev Reading (α : Type) := Except Stop (α × List Char)

/-- The characters that may stand between the parts of a value. -/
def isSpace (c : Char) : Bool := c = ' ' || c = '\t' || c = '\n' || c = '\r'

def skipSpace (s : List Char) : List Char := s.dropWhile isSpace

/-! ## Texts -/

def hexValue? (c : Char) : Option Nat :=
  if '0' ≤ c ∧ c ≤ '9' then some (c.toNat - '0'.toNat)
  else if 'a' ≤ c ∧ c ≤ 'f' then some (c.toNat - 'a'.toNat + 10)
  else if 'A' ≤ c ∧ c ≤ 'F' then some (c.toNat - 'A'.toNat + 10)
  else none

/-- The number that four hexadecimal digits write. -/
def hex4? (a b c d : Char) : Option Nat :=
  match hexValue? a, hexValue? b, hexValue? c, hexValue? d with
  | some a, some b, some c, some d => some (((a * 16 + b) * 16 + c) * 16 + d)
  | _, _, _, _ => none

/-- The character that a letter after a backslash stands for. -/
def escaped? (c : Char) : Option Char :=
  if c = '"' ∨ c = '\\' ∨ c = '/' then some c
  else if c = 'b' then some '\x08'
  else if c = 'f' then some '\x0c'
  else if c = 'n' then some '\n'
  else if c = 'r' then some '\r'
  else if c = 't' then some '\t'
  else none

def isHighHalf (n : Nat) : Bool := 0xD800 ≤ n && n < 0xDC00

def isLowHalf (n : Nat) : Bool := 0xDC00 ≤ n && n < 0xE000

/-- The character that two halves of a surrogate pair write. -/
def pair (high low : Nat) : Char :=
  Char.ofNat (0x10000 + (high - 0xD800) * 0x400 + (low - 0xDC00))

/-- The text that a row of numbers writes, the halves of surrogate pairs put together. -/
def paired : List Nat → CodePoints
  | [] => []
  | [n] => [.ofNat n]
  | n :: n' :: rest =>
    if isHighHalf n && isLowHalf n' then .char (pair n n') :: paired rest
    else .ofNat n :: paired (n' :: rest)

/-- Puts a number before those that were read. -/
def prepend (n : Nat) : Reading (List Nat) → Reading (List Nat)
  | .ok (ns, rest) => .ok (n :: ns, rest)
  | .error e => .error e

/-- The numbers of a text's code points up to its closing quote; `opened` is what was left after its
opening quote. Four digits after `\u` are taken only if the text goes on after them. -/
def codePoints (opened : List Char) : List Char → Reading (List Nat)
  | [] => .error (.wrong .unterminatedText (opened.length + 1))
  | '"' :: s => .ok ([], s)
  | '\\' :: [] => .error (.wrong .unterminatedText (opened.length + 1))
  | '\\' :: 'u' :: a :: b :: c :: d :: s =>
    match hex4? a b c d with
    | none => .error (.wrong .badUnicodeEscape (s.length + 5))
    | some n =>
      if s = [] then .error (.wrong .badUnicodeEscape (s.length + 5))
      else prepend n (codePoints opened s)
  | '\\' :: 'u' :: s => .error (.wrong .badUnicodeEscape (s.length + 1))
  | '\\' :: c :: s =>
    match escaped? c with
    | none => .error (.wrong .badEscape (s.length + 2))
    | some c => prepend c.toNat (codePoints opened s)
  | c :: s =>
    if c.toNat < 0x20 then .error (.wrong .controlCharacter (s.length + 1))
    else prepend c.toNat (codePoints opened s)

/-- The text whose opening quote has just been passed. -/
def text (s : List Char) : Reading CodePoints :=
  match codePoints s s with
  | .ok (ns, rest) => .ok (paired ns, rest)
  | .error e => .error e

/-! ## Numbers -/

def isDecimal (c : Char) : Bool := '0' ≤ c && c ≤ '9'

/-- The decimal digits at the beginning of a text, and the rest. -/
def digits (s : List Char) : List Char × List Char := (s.takeWhile isDecimal, s.dropWhile isDecimal)

/-- The digits before a point: a zero alone, or a row of digits that begins with another one. -/
def wholeDigits : List Char → List Char × List Char
  | '0' :: s => (['0'], s)
  | s => digits s

/-- The digits after a point, if there are any. -/
def fraction (s : List Char) : List Char × List Char :=
  match s with
  | '.' :: r => if (digits r).1 = [] then ([], s) else digits r
  | _ => ([], s)

/-- The digits after an optional sign, if there are any. -/
def signedDigits (s : List Char) : Option (Int × List Char) :=
  let (negative, r) : Bool × List Char := match s with
    | '-' :: r => (true, r)
    | '+' :: r => (false, r)
    | _ => (false, s)
  if (digits r).1 = [] then none
  else
    let n : Int := Text.value (digits r).1
    some (if negative then -n else n, (digits r).2)

/-- The power of ten after an `e`, if it has digits. -/
def exponent (s : List Char) : Option Int × List Char :=
  match s with
  | c :: r =>
    if c = 'e' ∨ c = 'E' then
      match signedDigits r with
      | some (n, rest) => (some n, rest)
      | none => (none, s)
    else (none, s)
  | [] => (none, s)

/-- The number at the beginning of a text, after its sign; `start` is what was left before the
sign. -/
def number (start : List Char) (negative : Bool) (s : List Char) : Reading Value :=
  let (whole, s) := wholeDigits s
  if whole = [] then .error (.wrong .expectedValue start.length)
  else
    let (places, s) := fraction s
    let (power, s) := exponent s
    if places = [] ∧ power = none then
      match Number.read? whole with
      | none => .error (.tooManyDigits whole.length)
      | some n => .ok (.int (if negative then -n else n), s)
    else
      let scale : Int := power.getD 0 - places.length
      .ok (.float (Number.ofDecimal negative (Text.value (whole ++ places)) scale), s)

/-! ## Values -/

/-- The rest of a text after a word that it begins with. -/
def after? (word : String) (s : List Char) : Option (List Char) :=
  if word.toList.isPrefixOf s then some (s.drop word.length) else none

def words : List (String × Value) := [
  ("null", .null), ("true", .bool true), ("false", .bool false),
  ("NaN", .float (UInt64.ofNat Number.notANumberBits)),
  ("Infinity", .float (UInt64.ofNat Number.infinityBits)),
  ("-Infinity", .float (UInt64.ofNat (Number.signBit true + Number.infinityBits)))]

/-- The value of the word that a text begins with. -/
def word? (s : List Char) : Option (Value × List Char) :=
  words.findSome? fun (word, v) => (after? word s).map fun rest => (v, rest)

/-- A value that is neither a text nor a list nor an object. -/
def scalar (s : List Char) : Reading Value :=
  match word? s with
  | some r => .ok r
  | none =>
    match s with
    | '-' :: r => number s true r
    | _ => number s false s

mutual

/-- The value at the beginning of a text; `room` is how deep the lists and objects in it may be
nested. The first argument bounds the depth of the calls; twice the length of the text is enough,
since no two calls begin at the same place. -/
def value : Nat → Nat → List Char → Reading Value
  | 0, _, s => .error (.wrong .expectedValue s.length)
  | fuel + 1, room, s =>
    match s with
    | '"' :: r =>
      match text r with
      | .ok (t, rest) => .ok (.text t, rest)
      | .error e => .error e
    | '[' :: r =>
      match room with
      | 0 => .error (.tooDeep .list)
      | room + 1 =>
        match skipSpace r with
        | ']' :: rest => .ok (.list [], rest)
        | r =>
          match items fuel room r with
          | .ok (vs, rest) => .ok (.list vs, rest)
          | .error e => .error e
    | '\x7b' :: r =>
      match room with
      | 0 => .error (.tooDeep .object)
      | room + 1 =>
        match skipSpace r with
        | '\x7d' :: rest => .ok (.object [], rest)
        | r =>
          match fields fuel room r with
          | .ok (fs, rest) => .ok (.object (Record.ofList fs), rest)
          | .error e => .error e
    | s => scalar s

/-- The items of a list up to its closing bracket. -/
def items : Nat → Nat → List Char → Reading (List Value)
  | 0, _, s => .error (.wrong .expectedValue s.length)
  | fuel + 1, room, s =>
    match value fuel room s with
    | .error e => .error e
    | .ok (v, rest) =>
      match skipSpace rest with
      | ']' :: rest => .ok ([v], rest)
      | ',' :: rest =>
        match items fuel room (skipSpace rest) with
        | .ok (vs, rest) => .ok (v :: vs, rest)
        | .error e => .error e
      | rest => .error (.wrong .expectedComma rest.length)

/-- The fields of an object up to its closing brace. -/
def fields : Nat → Nat → List Char → Reading (List (CodePoints × Value))
  | 0, _, s => .error (.wrong .expectedValue s.length)
  | fuel + 1, room, s =>
    match s with
    | '"' :: r =>
      match text r with
      | .error e => .error e
      | .ok (name, rest) =>
        match skipSpace rest with
        | ':' :: rest =>
          match value fuel room (skipSpace rest) with
          | .error e => .error e
          | .ok (v, rest) =>
            match skipSpace rest with
            | '\x7d' :: rest => .ok ([(name, v)], rest)
            | ',' :: rest =>
              match fields fuel room (skipSpace rest) with
              | .ok (fs, rest) => .ok ((name, v) :: fs, rest)
              | .error e => .error e
            | rest => .error (.wrong .expectedComma rest.length)
        | rest => .error (.wrong .expectedColon rest.length)
    | s => .error (.wrong .expectedName s.length)

end

/-- The value that a text writes, with blanks around it. -/
def document (s : List Char) : Except Stop Value :=
  match s with
  | '\uFEFF' :: _ => .error (.wrong .byteOrderMark s.length)
  | s =>
    match value (2 * s.length + 2) depthLimit (skipSpace s) with
    | .error e => .error e
    | .ok (v, rest) =>
      match skipSpace rest with
      | [] => .ok v
      | rest => .error (.wrong .extraData rest.length)

/-- Why a text is no value. -/
inductive Error
  | wrong (reason : Reason) (offset line column : Nat)
  | tooManyDigits (count : Nat)
  | tooDeep (bracket : Bracket)
  deriving DecidableEq, Repr

/-- An error with the place of the rest at which reading stopped. Lines and columns count from
one. -/
def Stop.locate (s : List Char) : Stop → Error
  | .tooManyDigits count => .tooManyDigits count
  | .tooDeep bracket => .tooDeep bracket
  | .wrong reason rest =>
    let before := s.take (s.length - rest)
    .wrong reason before.length (before.count '\n' + 1)
      ((before.reverse.takeWhile (· ≠ '\n')).length + 1)

/-- The value that a text writes. -/
def read (s : String) : Except Error Value :=
  match document s.toList with
  | .ok v => .ok v
  | .error e => .error (e.locate s.toList)

end Workbench.Json
