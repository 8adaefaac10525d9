import Workbench.Number.Decimal
import Workbench.Number.Shortest
import Workbench.Text.Quoted

/-!
# Values of settings

A setting has the shape of a JSON value. Whole numbers have no bound, other numbers are binary
ones of 64 bits, given by their bits. Texts may hold halves of surrogate pairs, as those of JSON do.
In memory a setting may also hold what has no JSON (`Foreign`).

* `holds v` : does a switch with this value count as on?
* `kind v` : the name of the value's kind in messages;
* `quoted? v`, `display? v` : the value in a message, with and without quotes around a text; there
  is none if a whole number in it has too many digits.
-/

namespace Workbench.Settings

open Text (CodePoints)

/-- An object that has no JSON: one of a class of its own, which is neither a text nor a path and
holds no items, or a list or an object where it is met again inside itself. -/
structure Foreign where
  kind : String
  /-- how it is shown -/
  shown : String
  /-- is it met inside itself? -/
  circular : Bool := false
  deriving DecidableEq, Repr

inductive Value
  | null
  | bool (b : Bool)
  | int (n : Int)
  | float (bits : UInt64)
  | text (s : CodePoints)
  | list (items : List Value)
  | object (fields : List (CodePoints × Value))
  | foreign (f : Foreign)
  deriving Inhabited

namespace Value

/-- A value counts as on unless it is null, false, zero or empty. -/
def holds : Value → Bool
  | .null => false
  | .bool b => b
  | .int n => n ≠ 0
  | .float bits => bits ≠ 0 && bits ≠ 0x8000000000000000
  | .text s => !s.isEmpty
  | .list items => !items.isEmpty
  | .object fields => !fields.isEmpty
  | .foreign _ => true

/-- The name of a value's kind. -/
def kind : Value → String
  | .null => "NoneType"
  | .bool _ => "bool"
  | .int _ => "int"
  | .float _ => "float"
  | .text _ => "str"
  | .list _ => "list"
  | .object _ => "dict"
  | .foreign f => f.kind

mutual

/-- A value in a message, texts between quotes. -/
def quoted? : Value → Option String
  | .null => some "None"
  | .bool true => some "True"
  | .bool false => some "False"
  | .int n => Number.text? n
  | .float bits => some (Number.shortest bits)
  | .text s => some s.quoted
  | .list items => (quotedItems? items).map fun ts => "[" ++ ", ".intercalate ts ++ "]"
  | .object fields =>
    (quotedFields? fields).map fun ts => "\x7b" ++ ", ".intercalate ts ++ "\x7d"
  | .foreign f => some f.shown

def quotedItems? : List Value → Option (List String)
  | [] => some []
  | v :: rest =>
    match quoted? v, quotedItems? rest with
    | some t, some ts => some (t :: ts)
    | _, _ => none

def quotedFields? : List (CodePoints × Value) → Option (List String)
  | [] => some []
  | (k, v) :: rest =>
    match quoted? v, quotedFields? rest with
    | some t, some ts => some ((k.quoted ++ ": " ++ t) :: ts)
    | _, _ => none

end

/-- A value in a message, a text as it is. -/
def display? : Value → Option String
  | .text s => some s.shown
  | v => v.quoted?

end Value

end Workbench.Settings
