import Workbench.Text.Lines

/-!
# Paths

A path is where it starts and the names to follow from there. Its text separates the names with
`/`; empty names and `.` say nothing and are dropped, while `..` stays, since the name before it
may be a link.

* `Path.ofText`, `Path.text` : reading and writing. A text with exactly two leading slashes is a
  root of its own, any other number of them is the usual root;
* `parent`, `name`, `stem`, `suffix` : the parts of a path;
* `p / q` : the path `q` taken from `p`;
* `normalized` : without `..`, as far as there are names to take back;
* `absolute cwd s` : the normalized path of the text `s` as seen from the directory `cwd`.
-/

namespace Workbench

/-- Where a path starts: at the place it is looked up from, or at one of the two roots. -/
inductive Root
  | here
  | single
  | double
  deriving DecidableEq, Repr

def Root.text : Root → String
  | .here => ""
  | .single => "/"
  | .double => "//"

/-- A start and the names to follow from it. -/
structure Path where
  root : Root
  parts : List String
  deriving DecidableEq, Repr

namespace Path

def rootOf : List Char → Root
  | '/' :: '/' :: '/' :: _ => .single
  | '/' :: '/' :: _ => .double
  | '/' :: _ => .single
  | _ => .here

/-- The names of a text: what lies between the slashes, except nothing and `.`. -/
def partsOf (s : List Char) : List String :=
  ((Text.splitOn '/' s).filter fun part => part ≠ [] && part ≠ ['.']).map String.ofList

def ofText (s : String) : Path := { root := rootOf s.toList, parts := partsOf s.toList }

/-- The path of some bytes, each of them shown as the character with its number. -/
def ofBytes (bs : List UInt8) : Path := ofText (String.ofList (bs.map fun b => Char.ofNat b.toNat))

/-- The text of a path; a path that goes nowhere is `.`. -/
def text (p : Path) : String :=
  if p.root = .here ∧ p.parts = [] then "." else p.root.text ++ Text.interleave "/" p.parts

/-- The path without its last name; without a name it is its own parent. -/
def parent (p : Path) : Path := { p with parts := p.parts.dropLast }

def name (p : Path) : String := p.parts.getLastD ""

/-- The path `q` taken from `p`. -/
def join (p q : Path) : Path :=
  if q.root = .here then { p with parts := p.parts ++ q.parts } else q

instance : Div Path := ⟨join⟩

/-- The place of the last point of a name whose first `offset` characters are left out. -/
def lastPointFrom (offset : Nat) : List Char → Option Nat
  | [] => none
  | c :: s => (lastPointFrom (offset + 1) s).or (if c = '.' then some offset else none)

/-- A name cut before its last point, unless the point is its first or last character. -/
def splitName (name : List Char) : List Char × List Char :=
  match lastPointFrom 0 name with
  | none => (name, [])
  | some i =>
    if 0 < i ∧ i + 1 < name.length then (name.take i, name.drop i) else (name, [])

/-- The last name without its suffix. -/
def stem (p : Path) : String := String.ofList (splitName p.name.toList).1

/-- The last name from its last point on. -/
def suffix (p : Path) : String := String.ofList (splitName p.name.toList).2

/-- Follows names from the names on `stack`, the last one on top, and takes one back at each `..`.
At a root there is nothing to take back; elsewhere `..` is kept when there is no name before it. -/
def follow (rooted : Bool) : List String → List String → List String
  | stack, [] => stack.reverse
  | stack, part :: rest =>
    if part = ".." then
      match stack with
      | [] => follow rooted (if rooted then [] else [".."]) rest
      | top :: below => follow rooted (if top = ".." then ".." :: stack else below) rest
    else follow rooted (part :: stack) rest

/-- The path without the `..` that take back a name. -/
def normalized (p : Path) : Path := { p with parts := follow (p.root ≠ .here) [] p.parts }

/-- The normalized path of a text, looked up from the directory `cwd`. -/
def absolute (cwd s : String) : Path := (ofText cwd / ofText s).normalized

/-- The place that a text leads to from `cwd`, at the usual root. -/
def resolved (cwd s : String) : Path := { absolute cwd s with root := .single }

end Path

end Workbench
