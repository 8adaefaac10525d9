import Workbench.Template.NumberLayout
import Workbench.Template.Thing

/-!
# Templates

A template is a text with fields between braces; a brace that is text is written twice. A field has
a name, then perhaps places in its value (`[2]`) and names that lead on from it (`.name`), a
conversion (`!r` quotes the value) and a layout after a colon. The layout may itself hold fields,
but those may not go deeper.

* `pieces s` : the characters and fields of a template, up to its first mistake;
* `expand values s` : the text of a template for given values of its fields. Pieces are expanded
  from left to right, so the first field without a value is noticed before a later mistake;
* `escape s` : the template whose text is `s`, whatever the values.
-/

namespace Workbench.Template

open Text (CodePoint CodePoints)

inductive Mistake
  | loneClose
  | loneOpen
  | openInName
  | unclosedField
  | noConversion
  | afterConversion
  | unclosedLayout
  | unknownConversion (c : CodePoint)
  | emptyPlace
  | unclosedPlace
  | afterPlace
  | tooManyDigits
  | tooDeep
  | layout (e : LayoutError)
  deriving DecidableEq, Repr

/-- Why a template has no text. -/
inductive Fault
  | unknownField (name : CodePoints)
  | numberedField (index : Nat)
  /-- a place beyond the end of a text or row -/
  | placeOutOfRange (k : Kind)
  /-- a place in a text or row that is no number -/
  | placeNotNumber (k : Kind)
  /-- a place in a table that has nothing there -/
  | noEntry (place : Thing)
  | noPlaces (t : Thing)
  /-- a name that leads nowhere from a thing; `holder` is the name of its kind -/
  | noAttribute (holder : String) (member : CodePoints)
  /-- a name that leads nowhere from a kind -/
  | noMember (k : Kind) (member : CodePoints)
  /-- a name that would lead on from a kind if the kind had made use of it -/
  | notSet (member : CodePoints)
  /-- a layout for a thing that has none -/
  | noLayout (k : Kind)
  | mistake (m : Mistake)
  deriving DecidableEq, Repr

/-- A field as it is written between its braces. -/
structure Field where
  name : CodePoints
  conversion : Option CodePoint
  layout : CodePoints
  deriving DecidableEq, Repr

inductive Piece
  | char (c : CodePoint)
  | field (f : Field)
  | wrong (m : Mistake)
  deriving DecidableEq, Repr

/-- Where a reader stands in a template. What is read of a part is kept backwards. -/
inductive Mode
  | text
  | afterOpen
  | afterClose
  | name (read : CodePoints)
  | place (read : CodePoints)
  | conversion (name : CodePoints)
  | afterConversion (name : CodePoints) (conversion : CodePoint)
  | layout (name : CodePoints) (conversion : Option CodePoint) (read : CodePoints) (depth : Nat)
  deriving DecidableEq, Repr

def plainField (read : CodePoints) (conversion : Option CodePoint) : Piece :=
  .field { name := read.reverse, conversion, layout := [] }

/-- The pieces of a template that is read in a mode. -/
def piecesFrom : Mode → CodePoints → List Piece
  | .text, [] => []
  | .afterOpen, [] => [.wrong .loneOpen]
  | .afterClose, [] => [.wrong .loneClose]
  | .name _, [] => [.wrong .unclosedField]
  | .place _, [] => [.wrong .unclosedField]
  | .conversion _, [] => [.wrong .noConversion]
  | .afterConversion _ _, [] => [.wrong .unclosedLayout]
  | .layout _ _ _ _, [] => [.wrong .unclosedLayout]
  | .text, c :: s =>
    if c = .char '\x7b' then piecesFrom .afterOpen s
    else if c = .char '\x7d' then piecesFrom .afterClose s
    else .char c :: piecesFrom .text s
  | .afterClose, c :: s =>
    if c = .char '\x7d' then .char (.char '\x7d') :: piecesFrom .text s else [.wrong .loneClose]
  | .afterOpen, c :: s =>
    if c = .char '\x7b' then .char (.char '\x7b') :: piecesFrom .text s
    else if c = .char '\x7d' then plainField [] none :: piecesFrom .text s
    else if c = .char ':' then piecesFrom (.layout [] none [] 0) s
    else if c = .char '!' then piecesFrom (.conversion []) s
    else piecesFrom (if c = .char '[' then .place [c] else .name [c]) s
  | .name read, c :: s =>
    if c = .char '\x7b' then [.wrong .openInName]
    else if c = .char '\x7d' then plainField read none :: piecesFrom .text s
    else if c = .char ':' then piecesFrom (.layout read none [] 0) s
    else if c = .char '!' then piecesFrom (.conversion read) s
    else piecesFrom (if c = .char '[' then .place (c :: read) else .name (c :: read)) s
  | .place read, c :: s =>
    piecesFrom (if c = .char ']' then .name (c :: read) else .place (c :: read)) s
  | .conversion read, c :: s => piecesFrom (.afterConversion read c) s
  | .afterConversion read conversion, c :: s =>
    if c = .char '\x7d' then plainField read (some conversion) :: piecesFrom .text s
    else if c = .char ':' then piecesFrom (.layout read (some conversion) [] 0) s
    else [.wrong .afterConversion]
  | .layout name conversion read depth, c :: s =>
    if c = .char '\x7b' then piecesFrom (.layout name conversion (c :: read) (depth + 1)) s
    else if c = .char '\x7d' then
      match depth with
      | 0 => .field { name := name.reverse, conversion, layout := read.reverse } ::
          piecesFrom .text s
      | depth + 1 => piecesFrom (.layout name conversion (c :: read) depth) s
    else piecesFrom (.layout name conversion (c :: read) depth) s

def pieces (s : CodePoints) : List Piece := piecesFrom .text s

/-- The number that a text writes from `n` on, nothing if it holds more than digits, and a mistake
if it is too great. -/
def indexFrom (n : Nat) : CodePoints → Except Mistake (Option Nat)
  | [] => .ok (some n)
  | c :: s =>
    match digit? c with
    | none => .ok none
    | some d =>
      if (greatestIndex - d) / 10 < n then .error .tooManyDigits else indexFrom (10 * n + d) s

/-- The number that a text writes, if it is not empty and holds digits only. -/
def index? (s : CodePoints) : Except Mistake (Option Nat) :=
  if s = [] then .ok none else indexFrom 0 s

/-- Does a code point begin a place or a name that leads on? -/
def beginsAccess (c : CodePoint) : Bool := c = .char '.' || c = .char '['

/-- A place as a thing: a number, or a text if it is written otherwise. -/
def placeThing (place : CodePoints) (index : Option Nat) : Thing :=
  match index with
  | some i => .number i
  | none => .text place

/-- May a place be written after a kind? -/
def Kind.takesPlace (k : Kind) : Bool := k = .kind || (k.find? "__class_getitem__").isSome

def Thing.item (t place : Thing) : Except Fault Thing :=
  match t, place with
  | .text s, .number i =>
    match s[i]? with
    | none => .error (.placeOutOfRange .text)
    | some c => .ok (.text [c])
  | .row ks, .number i =>
    match ks[i]? with
    | none => .error (.placeOutOfRange .row)
    | some k => .ok (.kind k)
  | .single t, .number i => if i = 0 then .ok t else .error (.placeOutOfRange .row)
  | .text _, _ => .error (.placeNotNumber .text)
  | .row _, _ => .error (.placeNotNumber .row)
  | .single _, _ => .error (.placeNotNumber .row)
  | .table k, .text name =>
    match name.toString?.bind k.own? with
    | none => .error (.noEntry place)
    | some m => .ok (.ofMember k m)
  | .table _, _ => .error (.noEntry place)
  | .noMembers, _ => .error (.noEntry place)
  | .kind k, _ => if k.takesPlace then .ok (.applied k place) else .error (.noPlaces t)
  | t, _ => .error (.noPlaces t)

/-- The thing at a place of a thing, as the place is written. -/
def atPlace (t : Thing) (place : CodePoints) : Except Fault Thing :=
  match index? place with
  | .error m => .error (.mistake m)
  | .ok index =>
    if place = [] then .error (.mistake .emptyPlace) else t.item (placeThing place index)

/-- Why a name leads nowhere from the thing that is asked. -/
def Thing.missing (t : Thing) (name : CodePoints) : Fault :=
  match t with
  | .kind k => if name = CodePoints.ofString "__abstractmethods__" then .notSet name
    else .noMember k name
  | t => .noAttribute t.kindOf.fullName name

def atName (t : Thing) (name : CodePoints) : Except Fault Thing :=
  if name = [] then .error (.mistake .emptyPlace)
  else
    match name.toString?.bind t.attribute? with
    | some t => .ok t
    | none => .error ((t.asked name.shown).missing name)

/-- How a name that is being read goes on from a thing. -/
inductive Access
  /-- it has come to an end, or to the next place or name -/
  | none
  /-- in a place, of which this is read, backwards -/
  | place (read : CodePoints)
  /-- in a name, of which this is read, backwards -/
  | name (read : CodePoints)
  deriving DecidableEq, Repr

/-- Follows the places and names of a field's name from a thing. -/
def follow (t : Thing) : Access → CodePoints → Except Fault Thing
  | .none, [] => .ok t
  | .place _, [] => .error (.mistake .unclosedPlace)
  | .name read, [] => atName t read.reverse
  | .none, c :: s =>
    if c = .char '[' then follow t (.place []) s
    else if c = .char '.' then follow t (.name []) s
    else .error (.mistake .afterPlace)
  | .place read, c :: s =>
    if c = .char ']' then
      match atPlace t read.reverse with
      | .error e => .error e
      | .ok t => follow t .none s
    else follow t (.place (c :: read)) s
  | .name read, c :: s =>
    if beginsAccess c then
      match atName t read.reverse with
      | .error e => .error e
      | .ok t => follow t (if c = .char '[' then .place [] else .name []) s
    else follow t (.name (c :: read)) s

/-- The value of the field that a name begins with. -/
def fieldValue (values : String → Option String) (name : CodePoints) : Except Fault Thing :=
  match index? name with
  | .error m => .error (.mistake m)
  | .ok (some i) => .error (.numberedField i)
  | .ok none =>
    if name = [] then .error (.numberedField 0)
    else
      match name.toString?.bind values with
      | none => .error (.unknownField name)
      | some value => .ok (.text value)

/-- A thing converted as a field asks for. The null character asks for nothing. -/
def convert (conversion : Option CodePoint) (t : Thing) : Except Fault Thing :=
  match conversion with
  | none => .ok t
  | some (.char '\x00') => .ok t
  | some (.char 's') => .ok (.text t.shown)
  | some (.char 'r') => .ok (.text t.quoted)
  | some (.char 'a') => .ok (.text t.quotedAscii)
  | some c => .error (.mistake (.unknownConversion c))

/-- A thing laid out as described. Only texts and numbers have a layout, and a truth value has that
of a number. -/
def Thing.layOut (spec : CodePoints) (t : Thing) : Except Fault CodePoints :=
  if spec = [] then .ok t.shown
  else
    match t with
    | .text s => (Template.layOut spec s).mapError fun e => .mistake (.layout e)
    | .number n => (layOutNumber .number spec n).mapError fun e => .mistake (.layout e)
    | .truth b => (layOutNumber .truth spec b.toNat).mapError fun e => .mistake (.layout e)
    | t => .error (.noLayout t.kindOf)

/-- The text of a field; `inner` expands a layout that holds fields. -/
def expandField (values : String → Option String) (inner : CodePoints → Except Fault CodePoints)
    (f : Field) : Except Fault CodePoints := do
  let first := f.name.takeWhile (!beginsAccess ·)
  let t ← fieldValue values first
  let t ← follow t .none (f.name.drop first.length)
  let t ← convert f.conversion t
  let layout ← if .char '\x7b' ∈ f.layout then inner f.layout else pure f.layout
  t.layOut layout

/-- The text of pieces, from left to right. -/
def expandPieces (values : String → Option String) (inner : CodePoints → Except Fault CodePoints) :
    List Piece → Except Fault CodePoints
  | [] => .ok []
  | .wrong m :: _ => .error (.mistake m)
  | .char c :: rest =>
    match expandPieces values inner rest with
    | .ok s => .ok (c :: s)
    | .error e => .error e
  | .field f :: rest =>
    match expandField values inner f with
    | .error e => .error e
    | .ok t =>
      match expandPieces values inner rest with
      | .ok s => .ok (t ++ s)
      | .error e => .error e

/-- The text of a template whose fields may hold fields to a depth. -/
def expandDepth (values : String → Option String) : Nat → CodePoints → Except Fault CodePoints
  | 0, _ => .error (.mistake .tooDeep)
  | depth + 1, s => expandPieces values (expandDepth values depth) (pieces s)

def expand (values : String → Option String) (s : CodePoints) : Except Fault CodePoints :=
  expandDepth values 2 s

def escapeChar (c : Char) : List Char := if c = '\x7b' ∨ c = '\x7d' then [c, c] else [c]

/-- The template whose text is `s`. -/
def escape (s : String) : String := String.ofList (s.toList.flatMap escapeChar)

/-! ## Messages -/

def Mistake.message : Mistake → CodePoints
  | .loneClose => "Single '\x7d' encountered in format string"
  | .loneOpen => "Single '\x7b' encountered in format string"
  | .openInName => "unexpected '\x7b' in field name"
  | .unclosedField => "expected '\x7d' before end of string"
  | .noConversion => "end of string while looking for conversion specifier"
  | .afterConversion => "expected ':' after conversion specifier"
  | .unclosedLayout => "unmatched '\x7b' in format spec"
  | .unknownConversion c => CodePoints.ofString ("Unknown conversion specifier " ++ showPoint 127 c)
  | .emptyPlace => "Empty attribute in format string"
  | .unclosedPlace => "Missing ']' in format string"
  | .afterPlace => "Only '.' or '[' may follow ']' in format field specifier"
  | .tooManyDigits => "Too many decimal digits in format string"
  | .tooDeep => "Max string recursion exceeded"
  | .layout e => e.message

/-- What a text or row is called where its places are spoken of. -/
def placesOf (k : Kind) : String := if k = .text then "string" else k.name

def Fault.message : Fault → CodePoints
  | .unknownField name => name.quoted
  | .numberedField i =>
    CodePoints.ofString
      ("Replacement index " ++ toString i ++ " out of range for positional args tuple")
  | .placeOutOfRange k => CodePoints.ofString (placesOf k ++ " index out of range")
  | .placeNotNumber .text => "string indices must be integers, not 'str'"
  | .placeNotNumber k =>
    CodePoints.ofString (placesOf k ++ " indices must be integers or slices, not str")
  | .noEntry place => place.quoted
  | .noPlaces (.kind k) =>
    CodePoints.ofString ("type '" ++ k.fullName ++ "' is not subscriptable")
  | .noPlaces (.applied k place) =>
    (Thing.applied k place).quoted ++ CodePoints.ofString " is not a generic class"
  | .noPlaces t =>
    CodePoints.ofString ("'" ++ t.kindOf.fullName ++ "' object is not subscriptable")
  | .noAttribute holder member =>
    CodePoints.ofString ("'" ++ holder ++ "' object has no attribute '") ++ member ++
      CodePoints.ofString "'"
  | .noMember k member =>
    CodePoints.ofString ("type object '" ++ k.fullName ++ "' has no attribute '") ++ member ++
      CodePoints.ofString "'"
  | .notSet member => member
  | .noLayout k =>
    CodePoints.ofString ("unsupported format string passed to " ++ k.fullName ++ ".__format__")
  | .mistake m => m.message

inductive Fault.Class
  | name
  | place
  | attribute
  | value
  /-- a thing was asked for what its kind does not have -/
  | kind
  /-- a number is too great for what it stands for -/
  | range
  /-- a text would be too long -/
  | size
  deriving DecidableEq, Repr

def Fault.Class.label : Fault.Class → String
  | .name => "KeyError"
  | .place => "IndexError"
  | .attribute => "AttributeError"
  | .value => "ValueError"
  | .kind => "TypeError"
  | .range => "OverflowError"
  | .size => "MemoryError"

def Fault.classOf : Fault → Fault.Class
  | .unknownField _ | .noEntry _ => .name
  | .numberedField _ | .placeOutOfRange _ => .place
  | .noAttribute _ _ | .noMember _ _ | .notSet _ => .attribute
  | .placeNotNumber _ | .noPlaces _ | .noLayout _ => .kind
  | .mistake (.layout .noCharacter) => .range
  | .mistake (.layout .tooWide) => .size
  | .mistake _ => .value

/-- Is a fault one of the template, not of the things that it reaches? -/
def Fault.isInTemplate (f : Fault) : Bool :=
  match f.classOf with
  | .name | .place | .attribute | .value => true
  | .kind | .range | .size => false

/-- A fault as messages name it: its class with its text between parentheses. -/
def Fault.describe (f : Fault) : String :=
  let text := match f with
    | .unknownField _ | .noEntry _ => f.message.shown
    | f => f.message.quoted
  f.classOf.label ++ "(" ++ text ++ ")"

end Workbench.Template
