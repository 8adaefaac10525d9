import Workbench.Json.Reader
import Workbench.Proofs.Text.Blank

/-!
# The grammar of JSON

What a text may look like, said without a reader. A whole number has at most `limit` digits, and
lists and objects are nested at most `room` deep; both limits are those of the program, and a text
that keeps to no limits keeps to some.

* `Quoted s t` : the text `t` between quotes, with escapes for some of its code points;
* `Numeral limit s v` : a number with or without a fraction and a power of ten;
* `Row ts s` : texts with commas between them;
* `Writes limit room s v` : a value; `WritesFields limit room s fields` : an object with the names
  as they stand there, repeated ones included;
* `Document limit room s v` : a value with blanks around it.
-/

namespace Workbench.Json

open Settings (Value)
open Text (CodePoints)

/-- Nothing but characters that may stand between the parts of a value. -/
def Gap (s : List Char) : Prop := ∀ c ∈ s, isSpace c = true

theorem gap_nil : Gap [] := fun _ h => nomatch h

/-- Decimal digits, and at least one. -/
structure Decimals (ds : List Char) : Prop where
  ne_nil : ds ≠ []
  all : ∀ c ∈ ds, isDecimal c = true

/-! ## Texts -/

/-- What stands for one number in a text: a character itself, a letter after a backslash, or four
hexadecimal digits. -/
inductive Piece : List Char → Nat → Prop
  | plain {c : Char} (hc : 0x20 ≤ c.toNat) (hquote : c ≠ '"') (hslash : c ≠ '\\') :
      Piece [c] c.toNat
  | short {c d : Char} (h : escaped? c = some d) : Piece ['\\', c] d.toNat
  | unicode {a b c d : Char} {n : Nat} (h : hex4? a b c d = some n) :
      Piece ['\\', 'u', a, b, c, d] n

/-- What stands for a row of numbers in a text. -/
inductive Points : List Char → List Nat → Prop
  | nil : Points [] []
  | cons {p s : List Char} {n : Nat} {ns : List Nat} (hp : Piece p n) (hs : Points s ns) :
      Points (p ++ s) (n :: ns)

/-- A text between quotes. -/
inductive Quoted : List Char → CodePoints → Prop
  | mk {s : List Char} {ns : List Nat} (h : Points s ns) : Quoted ('"' :: (s ++ ['"'])) (paired ns)

/-! ## Numbers -/

def signed (negative : Bool) (n : Int) : Int := if negative then -n else n

def minus (negative : Bool) : List Char := if negative then ['-'] else []

/-- A zero alone, or a row of digits that begins with another one. -/
inductive Whole : List Char → Prop
  | zero : Whole ['0']
  | digits {ds : List Char} (h : Decimals ds) (hzero : ds.head? ≠ some '0') : Whole ds

/-- A point and digits after it, or nothing. -/
inductive Fraction : List Char → List Char → Prop
  | none : Fraction [] []
  | some {ds : List Char} (h : Decimals ds) : Fraction ('.' :: ds) ds

/-- A sign, or nothing. -/
inductive Sign : List Char → Bool → Prop
  | none : Sign [] false
  | plus : Sign ['+'] false
  | minus : Sign ['-'] true

/-- An `e` and a power of ten after it, or nothing. -/
inductive Exponent : List Char → Option Int → Prop
  | none : Exponent [] none
  | some {e : Char} {sign ds : List Char} {negative : Bool} (he : e = 'e' ∨ e = 'E')
      (hsign : Sign sign negative) (h : Decimals ds) :
      Exponent (e :: (sign ++ ds)) (some (signed negative (Text.value ds)))

/-- A number. It is whole if it has neither a fraction nor a power of ten. -/
inductive Numeral (limit : Nat) : List Char → Value → Prop
  | int {negative : Bool} {ds : List Char} (h : Whole ds) (hlimit : ds.length ≤ limit) :
      Numeral limit (minus negative ++ ds) (.int (signed negative (Text.value ds)))
  | float {negative : Bool} {ds f x places : List Char} {power : Option Int} (h : Whole ds)
      (hf : Fraction f places) (hx : Exponent x power) (hnot : ¬ (places = [] ∧ power = none)) :
      Numeral limit (minus negative ++ (ds ++ (f ++ x)))
        (.float (Number.ofDecimal negative (Text.value (ds ++ places))
          (power.getD 0 - places.length)))

/-! ## Values -/

/-- Texts with commas between them and blanks around each. -/
inductive Row : List (List Char) → List Char → Prop
  | one {a t b : List Char} (ha : Gap a) (hb : Gap b) : Row [t] (a ++ (t ++ b))
  | more {a t b s : List Char} {ts : List (List Char)} (ha : Gap a) (hb : Gap b) (h : Row ts s) :
      Row (t :: ts) (a ++ (t ++ (b ++ ',' :: s)))

/-- A field of an object as it stands there: the name, and the value after a colon. -/
structure Member where
  name : CodePoints
  value : Value
  quoted : List Char
  before : List Char
  after : List Char
  written : List Char

namespace Member

def text (m : Member) : List Char := m.quoted ++ (m.before ++ ':' :: (m.after ++ m.written))

def field (m : Member) : CodePoints × Value := (m.name, m.value)

/-- The name is written, and nothing but blanks stand around the colon. -/
structure Formed (m : Member) : Prop where
  name : Quoted m.quoted m.name
  before : Gap m.before
  after : Gap m.after

end Member

/-- A text writes a value. -/
inductive Writes (limit : Nat) : Nat → List Char → Value → Prop
  | word {room : Nat} {w : String} {v : Value} (h : (w, v) ∈ words) :
      Writes limit room w.toList v
  | number {room : Nat} {s : List Char} {v : Value} (h : Numeral limit s v) : Writes limit room s v
  | text {room : Nat} {s : List Char} {t : CodePoints} (h : Quoted s t) :
      Writes limit room s (.text t)
  | emptyList {room : Nat} {b : List Char} (hb : Gap b) :
      Writes limit (room + 1) ('[' :: (b ++ [']'])) (.list [])
  | list {room : Nat} {s : List Char} {parts : List (List Char × Value)}
      (hs : Row (parts.map Prod.fst) s) (h : ∀ p ∈ parts, Writes limit room p.1 p.2) :
      Writes limit (room + 1) ('[' :: (s ++ [']'])) (.list (parts.map Prod.snd))
  | emptyObject {room : Nat} {b : List Char} (hb : Gap b) :
      Writes limit (room + 1) ('\x7b' :: (b ++ ['\x7d'])) (.object [])
  | object {room : Nat} {s : List Char} {members : List Member}
      (hs : Row (members.map Member.text) s) (hformed : ∀ m ∈ members, m.Formed)
      (h : ∀ m ∈ members, Writes limit room m.written m.value) :
      Writes limit (room + 1) ('\x7b' :: (s ++ ['\x7d']))
        (.object (Record.ofList (members.map Member.field)))

/-- A text writes an object with these fields, one after the other. -/
inductive WritesFields (limit : Nat) : Nat → List Char → List (CodePoints × Value) → Prop
  | none {room : Nat} {b : List Char} (hb : Gap b) :
      WritesFields limit (room + 1) ('\x7b' :: (b ++ ['\x7d'])) []
  | some {room : Nat} {s : List Char} {members : List Member}
      (hs : Row (members.map Member.text) s) (hformed : ∀ m ∈ members, m.Formed)
      (h : ∀ m ∈ members, Writes limit room m.written m.value) :
      WritesFields limit (room + 1) ('\x7b' :: (s ++ ['\x7d'])) (members.map Member.field)

/-- A value with blanks around it. -/
inductive Document (limit room : Nat) : List Char → Value → Prop
  | mk {a s b : List Char} {v : Value} (ha : Gap a) (hb : Gap b) (h : Writes limit room s v) :
      Document limit room (a ++ (s ++ b)) v

/-- An object with blanks around it. -/
inductive ObjectDocument (limit room : Nat) : List Char → List (CodePoints × Value) → Prop
  | mk {a s b : List Char} {fields : List (CodePoints × Value)} (ha : Gap a) (hb : Gap b)
      (h : WritesFields limit room s fields) : ObjectDocument limit room (a ++ (s ++ b)) fields

/-- Of an object's fields with one name the last one counts, at the place of the first one. -/
theorem WritesFields.writes {limit room : Nat} {s : List Char} {fields : List (CodePoints × Value)}
    (h : WritesFields limit room s fields) : Writes limit room s (.object (Record.ofList fields)) := by
  cases h with
  | none hb => exact .emptyObject hb
  | some hs hformed h => exact .object hs hformed h

theorem ObjectDocument.document {limit room : Nat} {s : List Char}
    {fields : List (CodePoints × Value)} (h : ObjectDocument limit room s fields) :
    Document limit room s (.object (Record.ofList fields)) := by
  obtain ⟨ha, hb, h⟩ := h
  exact ⟨ha, hb, h.writes⟩

end Workbench.Json
