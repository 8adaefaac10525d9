import Workbench.Template.Members
import Workbench.Text.Quoted

/-!
# What a template can reach

The value of a field is a text. By names after points and places between brackets, a template
reaches other things from it: the kind of the text, what the kind is called, the members of its
kind, and so on. Members are only reached, never called.

* `Thing` : the things;
* `Thing.attribute?` : the thing that a name leads to. The data members of its kind come first; then,
  for a kind, its own members and those of its line; then the other members of its kind;
* `Thing.shown`, `Thing.quoted` : the text of a thing.
-/

namespace Workbench.Template

open Text (CodePoint CodePoints)

/-- A thing that a template can reach. -/
inductive Thing
  | text (s : CodePoints)
  | number (n : Nat)
  | truth (b : Bool)
  | nothing
  | kind (k : Kind)
  | row (ks : List Kind)
  /-- a row of one thing -/
  | single (t : Thing)
  /-- the members of a kind by their names -/
  | table (k : Kind)
  /-- the members that a thing keeps besides, of which there are none -/
  | noMembers
  /-- a kind with a place written after it -/
  | applied (k : Kind) (place : Thing)
  | member (owner : Kind) (m : Member)
  /-- a member of a thing -/
  | bound (self : Thing) (owner : Kind) (m : Member)
  deriving DecidableEq, Repr

def Member.Sort.kindOf : Member.Sort → Kind
  | .operator => .operator
  | .kindMethod => .kindMethod
  | .shared => .shared
  | .computed => .computed
  | .stored => .stored
  | .method | .maker | .description | .absent => .method

namespace Thing

def ofString (s : String) : Thing := .text s

/-- A text that there may be, as a thing. -/
def ofString? (s : Option String) : Thing := (s.map ofString).getD .nothing

def kindOf : Thing → Kind
  | .text _ => .text
  | .number _ => .number
  | .truth _ => .truth
  | .nothing => .nothing
  | .kind _ => .kind
  | .row _ | .single _ => .row
  | .table _ => .table
  | .noMembers => .record
  | .applied _ _ => .applied
  | .member _ m => m.sort.kindOf
  | .bound _ _ m => if m.sort = .operator then .boundOperator else .boundMethod

/-! ## Members -/

def ofMember (owner : Kind) (m : Member) : Thing :=
  match m.sort with
  | .maker => .bound (.kind owner) owner m
  | .description => ofString? owner.description?
  | .absent => .nothing
  | _ => .member owner m

/-- What a shared member holds. -/
def unshared (owner : Kind) (m : Member) : Thing := .bound (.kind owner) owner m

def ofKind (k owner : Kind) (m : Member) : Thing :=
  match m.sort with
  | .kindMethod => .bound (.kind k) owner m
  | .shared => unshared owner m
  | _ => ofMember owner m

def bind (t : Thing) (owner : Kind) (m : Member) : Thing :=
  match m.sort with
  | .method | .operator => .bound t owner m
  | .kindMethod => .bound (.kind t.kindOf) owner m
  | .shared => unshared owner m
  | _ => ofMember owner m

/-- The description of a kind. A kind without one, whose things describe themselves, shows the
member by which they do. -/
def descriptionOf (k : Kind) : Thing :=
  match k.description?, k.own? "__doc__" with
  | some s, _ => ofString s
  | none, some m => ofMember k m
  | none, none => .nothing

/-- The full name of a member of a thing: it begins with the name of the kind that the thing is or
has, for an operator with that of the owner. -/
def boundName (self : Thing) (owner : Kind) (m : Member) : String :=
  let holder :=
    if m.sort = .operator then owner
    else
      match self with
      | .kind k => k
      | t => t.kindOf
  holder.name ++ "." ++ m.name

/-! ## Data members -/

/-- What a kind says of itself under a name. -/
def kindData? (k : Kind) (name : String) : Option Thing :=
  match name with
  | "__basicsize__" => some (.number k.measures.size)
  | "__itemsize__" => some (.number k.measures.partSize)
  | "__flags__" => some (.number k.measures.traits)
  | "__weakrefoffset__" => some (.number k.measures.watchersAt)
  | "__dictoffset__" => some (.number k.measures.membersAt)
  | "__base__" => some ((k.base?.map .kind).getD .nothing)
  | "__mro__" => some (.row k.line)
  | "__bases__" => some (.row k.base?.toList)
  | "__name__" | "__qualname__" => some (ofString k.name)
  | "__module__" => some (ofString k.collection)
  | "__dict__" => some (.table k)
  | "__doc__" => some (descriptionOf k)
  | "__text_signature__" => some (ofString? k.signature?)
  | _ => none

/-- What a number says of itself under a name. -/
def numberData? (n : Nat) (name : String) : Option Thing :=
  match name with
  | "real" | "numerator" => some (.number n)
  | "imag" => some (.number 0)
  | "denominator" => some (.number 1)
  | _ => none

/-- What a kind with a place says of itself under a name. -/
def appliedData? (k : Kind) (place : Thing) (name : String) : Option Thing :=
  match name with
  | "__origin__" => some (.kind k)
  | "__args__" => some (.single place)
  | "__unpacked__" => some (.truth false)
  | "__parameters__" => some (.row [])
  | "__typing_unpacked_tuple_args__" => some .nothing
  | _ => none

/-- What a member of a kind says of itself under a name. -/
def memberData? (owner : Kind) (m : Member) (name : String) : Option Thing :=
  match name with
  | "__objclass__" => some (.kind owner)
  | "__name__" => some (ofString m.name)
  | "__qualname__" => some (ofString (owner.name ++ "." ++ m.name))
  | "__doc__" => some (ofString? m.description?)
  | "__text_signature__" => some (ofString? m.signature?)
  | _ => none

/-- What a shared member says of itself under a name. -/
def sharedData? (owner : Kind) (m : Member) (name : String) : Option Thing :=
  match name with
  | "__func__" | "__wrapped__" => some (unshared owner m)
  | "__isabstractmethod__" => some (.truth false)
  | "__dict__" => some .noMembers
  | _ => none

/-- What a member of a thing says of itself under a name. What a shared member holds belongs to no
thing. -/
def boundData? (self : Thing) (owner : Kind) (m : Member) (name : String) : Option Thing :=
  match name with
  | "__self__" => some (if m.sort = .shared then .nothing else self)
  | "__qualname__" => some (ofString (boundName self owner m))
  | "__module__" => some .nothing
  | name => memberData? owner m name

/-- The value of a data member of a thing. -/
def data? (t : Thing) (name : String) : Option Thing :=
  if name = "__class__" then some (.kind t.kindOf)
  else
    match t with
    | .kind k => kindData? k name
    | .number n => numberData? n name
    | .truth b => numberData? b.toNat name
    | .applied k place => appliedData? k place name
    | .member owner m =>
      if m.sort = .shared then sharedData? owner m name else memberData? owner m name
    | .bound self owner m => boundData? self owner m name
    | _ => none

/-! ## Names -/

/-- The names that a kind with a place answers itself. All others lead on from the kind. -/
def ownNames : List String :=
  ["__class__", "__origin__", "__args__", "__unpacked__", "__parameters__",
    "__typing_unpacked_tuple_args__", "__mro_entries__", "__reduce_ex__", "__reduce__", "__copy__",
    "__deepcopy__"]

def asked (t : Thing) (name : String) : Thing :=
  match t with
  | .applied k _ => if name ∈ ownNames then t else .kind k
  | t => t

/-- The member of a thing's kind that a name leads to. -/
def viaKind? (t : Thing) (name : String) : Option Thing :=
  (t.kindOf.find? name).map fun (owner, m) => t.bind owner m

/-- The thing that a name leads to from the thing that is asked. -/
def answer? (t : Thing) (name : String) : Option Thing :=
  if (t.kindOf.find? name).any (·.2.isData) then t.data? name
  else
    match t with
    | .kind k => ((k.find? name).map fun (owner, m) => ofKind k owner m).or (t.viaKind? name)
    | t => t.viaKind? name

/-- The thing that a name leads to. -/
def attribute? (t : Thing) (name : String) : Option Thing := (t.asked name).answer? name

/-! ## Texts -/

/-- The end of the text of a thing that is shown by its place in memory, which is not said here. -/
def somewhere (t : Thing) : String := " of " ++ t.kindOf.fullName ++ " object at 0x0"

def memberText (owner : Kind) (m : Member) : String :=
  let owned := fun what =>
    "<" ++ what ++ " '" ++ m.name ++ "' of '" ++ owner.fullName ++ "' objects>"
  match m.sort with
  | .operator => owned "slot wrapper"
  | .computed => owned "attribute"
  | .stored => owned "member"
  | .shared =>
    "<staticmethod(<built-in method " ++ m.name ++ (Thing.kind owner).somewhere ++ ">)>"
  | _ => owned "method"

/-- A member of a thing as it is shown. -/
def boundText (self : Thing) (m : Member) : String :=
  let what :=
    if m.sort = .operator then "method-wrapper '" ++ m.name ++ "'"
    else "built-in method " ++ m.name
  "<" ++ what ++ self.somewhere ++ ">"

def rowText : List String → String
  | [s] => "(" ++ s ++ ",)"
  | ss => "(" ++ ", ".intercalate ss ++ ")"

/-- The members of a kind as they are shown, with texts quoted in a way. -/
def tableText (quote : CodePoints → String) (k : Kind) : String :=
  let value := fun (m : Member) =>
    match ofMember k m with
    | .text s => quote s
    | .bound self _ m => boundText self m
    | .member owner m => memberText owner m
    | _ => "None"
  let entry := fun (m : Member) => quote m.name ++ ": " ++ value m
  "\x7b" ++ ", ".intercalate (k.members.map entry) ++ "\x7d"

/-- A thing as it is shown, with texts quoted in a way. -/
def quotedBy (quote : CodePoints → String) : Thing → String
  | .text s => quote s
  | .number n => toString n
  | .truth b => if b then "True" else "False"
  | .nothing => "None"
  | .kind k => k.shown
  | .row ks => rowText (ks.map Kind.shown)
  | .single t => rowText [t.quotedBy quote]
  | .table k => "mappingproxy(" ++ tableText quote k ++ ")"
  | .noMembers => "\x7b\x7d"
  | .applied k place => k.name ++ "[" ++ place.quotedBy quote ++ "]"
  | .member owner m => memberText owner m
  | .bound self _ m => boundText self m

/-- A thing as it is shown with quotes around a text. -/
def quoted (t : Thing) : CodePoints := t.quotedBy CodePoints.quoted

/-- A thing as it is shown with quotes around a text, in ASCII only. -/
def quotedAscii (t : Thing) : CodePoints := t.quotedBy CodePoints.quotedAscii

def shown : Thing → CodePoints
  | .text s => s
  | .table k => tableText CodePoints.quoted k
  | t => t.quoted

end Thing

end Workbench.Template
