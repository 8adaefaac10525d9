/-!
# UTF-8

A sequence of bytes is read from the front into pieces: a character, or a number of bytes that
cannot be part of one together with the reason. A piece of bad bytes is as long as the longest
beginning of a character that it starts with, and one byte if there is none.

* `pieces bytes` : the pieces of a sequence;
* `decode bytes` : the characters, or the first bad piece with its offset;
* `decodeLossy bytes` : the characters, with `U+FFFD` for each bad piece.
-/

namespace Workbench.Utf8

/-- Why bytes are no character. -/
inductive Reason
  | invalidStart
  | invalidContinuation
  | unexpectedEnd
  deriving DecidableEq, Repr

def Reason.text : Reason → String
  | .invalidStart => "invalid start byte"
  | .invalidContinuation => "invalid continuation byte"
  | .unexpectedEnd => "unexpected end of data"

inductive Piece
  | char (c : Char)
  | bad (length : Nat) (first : UInt8) (reason : Reason)
  deriving DecidableEq, Repr

def Piece.width : Piece → Nat
  | .char c => c.utf8Size
  | .bad length _ _ => length

/-- A character of which some bytes are read: the code point so far, the number of bytes read and
still owed, and the range of the next byte. -/
structure Pending where
  first : UInt8
  point : Nat
  seen : Nat
  owed : Nat
  low : UInt8 := 0x80
  high : UInt8 := 0xBF
  deriving DecidableEq, Repr

/-- What the first byte of a character announces. -/
inductive Start
  | complete (c : Char)
  | pending (p : Pending)
  | invalid

/-- A first byte. The ranges of the byte after `E0`, `ED`, `F0` and `F4` leave out overlong forms,
surrogates and code points beyond the last one. -/
def start (b : UInt8) : Start :=
  if b < 0x80 then .complete (Char.ofNat b.toNat)
  else if b < 0xC2 then .invalid
  else if b < 0xE0 then .pending { first := b, point := b.toNat - 0xC0, seen := 1, owed := 1 }
  else if b < 0xF0 then
    let low : UInt8 := if b = 0xE0 then 0xA0 else 0x80
    let high : UInt8 := if b = 0xED then 0x9F else 0xBF
    .pending { first := b, point := b.toNat - 0xE0, seen := 1, owed := 2, low, high }
  else if b < 0xF5 then
    let low : UInt8 := if b = 0xF0 then 0x90 else 0x80
    let high : UInt8 := if b = 0xF4 then 0x8F else 0xBF
    .pending { first := b, point := b.toNat - 0xF0, seen := 1, owed := 3, low, high }
  else .invalid

/-- The pending character after one more byte of its range. -/
def Pending.push (p : Pending) (b : UInt8) : Pending :=
  { first := p.first, point := p.point * 64 + (b.toNat - 0x80), seen := p.seen + 1,
    owed := p.owed - 1 }

/-- The pieces of `bytes` after the bytes of the pending character, if there is one. -/
def piecesFrom : Option Pending → List UInt8 → List Piece
  | none, [] => []
  | some p, [] => [.bad p.seen p.first .unexpectedEnd]
  | none, b :: bytes =>
    match start b with
    | .complete c => .char c :: piecesFrom none bytes
    | .pending p => piecesFrom (some p) bytes
    | .invalid => .bad 1 b .invalidStart :: piecesFrom none bytes
  | some p, b :: bytes =>
    if p.low ≤ b ∧ b ≤ p.high then
      if p.owed = 1 then .char (Char.ofNat (p.push b).point) :: piecesFrom none bytes
      else piecesFrom (some (p.push b)) bytes
    else
      .bad p.seen p.first .invalidContinuation ::
        match start b with
        | .complete c => .char c :: piecesFrom none bytes
        | .pending q => piecesFrom (some q) bytes
        | .invalid => .bad 1 b .invalidStart :: piecesFrom none bytes

def pieces (bytes : List UInt8) : List Piece := piecesFrom none bytes

/-- The first bytes of a sequence that are no character. -/
structure Error where
  offset : Nat
  length : Nat
  first : UInt8
  reason : Reason
  deriving DecidableEq, Repr

/-- The characters of the pieces, of which the first begins at `offset`. -/
def charsFrom (offset : Nat) : List Piece → Except Error (List Char)
  | [] => .ok []
  | .bad length first reason :: _ => .error { offset, length, first, reason }
  | .char c :: rest =>
    match charsFrom (offset + c.utf8Size) rest with
    | .ok s => .ok (c :: s)
    | .error e => .error e

/-- The text that the bytes write. -/
def decode (bytes : List UInt8) : Except Error String :=
  match charsFrom 0 (pieces bytes) with
  | .ok s => .ok (String.ofList s)
  | .error e => .error e

/-- The replacement character for a piece that is no character. -/
def Piece.lossy : Piece → Char
  | .char c => c
  | .bad _ _ _ => '\uFFFD'

/-- The text that the bytes write, with the replacement character for each bad piece. -/
def decodeLossy (bytes : List UInt8) : String := String.ofList ((pieces bytes).map Piece.lossy)

/-- The bytes that write a text. -/
def encode (s : String) : List UInt8 := s.toUTF8.toList

end Workbench.Utf8
