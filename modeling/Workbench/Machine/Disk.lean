import Workbench.Text.Utf8

/-!
# Disks

A disk holds directories and files at places, a place being the names that lead to it from the root.
Places are those that are left when links are followed, so every place has one such list of names.

* `Content` : what a file holds, its `bytes` and its `size`;
* `Disk.get? d p` : the node at a place; the root is always a directory (`get?_nil`);
* `put`, `remove` : a node written to a place, a place with all below it taken away
  (`get?_put`, `get?_remove`);
* `build` : a node at a place with the directories that lead to it;
* `children d p` : the names directly below a place.
-/

namespace Workbench.Machine

/-- The names that lead to a file or directory from the root. -/
abbrev Place := List String

/-- What a file holds: some bytes, or a number of bytes that are all the same letter. -/
inductive Content
  | bytes (bs : List UInt8)
  | filler (count : Nat)
  deriving DecidableEq, Repr

namespace Content

def ofText (s : String) : Content := .bytes (Utf8.encode s)

def toBytes : Content → List UInt8
  | .bytes bs => bs
  | .filler n => List.replicate n 120

/-- The number of bytes of a file. -/
def size : Content → Nat
  | .bytes bs => bs.length
  | .filler n => n

end Content

inductive Node
  | directory
  | file (content : Content)
  deriving DecidableEq, Repr

namespace Node

def isDirectory : Node → Bool
  | .directory => true
  | .file _ => false

def directorySize : Nat := 4096

def size : Node → Nat
  | .directory => directorySize
  | .file c => c.size

end Node

/-- The nodes of a disk apart from its root. -/
abbrev Disk := List (Place × Node)

namespace Disk

/-- The node listed for a place. -/
def find? (d : Disk) (p : Place) : Option Node :=
  match d with
  | [] => none
  | (q, n) :: rest => if q = p then some n else find? rest p

def get? (d : Disk) (p : Place) : Option Node := if p = [] then some .directory else d.find? p

/-- The disk with a node at a place. Nothing is written to the root. -/
def put (d : Disk) (p : Place) (n : Node) : Disk :=
  if p = [] then d else (p, n) :: d.filter fun e => e.1 ≠ p

/-- The disk without a place and all below it. -/
def remove (d : Disk) (p : Place) : Disk := d.filter fun e => !p.isPrefixOf e.1

/-- The disk with a directory at a place unless something is there. -/
def addDirectory (d : Disk) (p : Place) : Disk := if (d.get? p).isSome then d else d.put p .directory

/-- The disk with directories at the place `start` and at those that the names lead to from there. -/
def addDirectories (d : Disk) (start : Place) : List String → Disk
  | [] => d.addDirectory start
  | name :: rest => (d.addDirectory start).addDirectories (start ++ [name]) rest

/-- The disk with a node at a place and directories that lead there. -/
def build (d : Disk) (p : Place) (n : Node) : Disk := (d.addDirectories [] p.dropLast).put p n

/-- The disk with a directory at a place and those that lead there. -/
def buildDirectory (d : Disk) (p : Place) : Disk := d.addDirectories [] p

/-- The names directly below a place. -/
def children (d : Disk) (p : Place) : List String :=
  d.filterMap fun e =>
    match e.1.getLast? with
    | some name => if e.1.dropLast = p then some name else none
    | none => none

@[simp] theorem get?_nil (d : Disk) : d.get? [] = some .directory := rfl

theorem find?_filter (d : Disk) (keep : Place → Bool) (p : Place) :
    find? (d.filter fun e => keep e.1) p = if keep p then d.find? p else none := by
  induction d with
  | nil => simp [find?]
  | cons e rest ih =>
    obtain ⟨q, n⟩ := e
    by_cases hq : keep q <;> by_cases hp : q = p
    · subst hp; simp [find?, hq]
    · simp [find?, hq, hp, ih]
    · subst hp; simp [hq, ih]
    · simp [find?, hq, hp, ih]

theorem get?_put (d : Disk) (p q : Place) (n : Node) :
    (d.put p n).get? q = if p = q ∧ p ≠ [] then some n else d.get? q := by
  by_cases hp : p = []
  · subst hp; simp [put]
  · by_cases h : p = q
    · subst h; simp [put, get?, hp, find?]
    · by_cases hq : q = []
      · subst hq; simp [get?, h]
      · have := find?_filter d (fun e => e ≠ p) q
        simp only [decide_not] at this
        simp [put, get?, hp, h, hq, find?, this, Ne.symm h]

theorem get?_remove (d : Disk) (p q : Place) (h : q ≠ []) :
    (d.remove p).get? q = if p.isPrefixOf q then none else d.get? q := by
  rw [get?, get?, if_neg h, if_neg h, remove, find?_filter d (fun e => !p.isPrefixOf e) q]
  by_cases hp : p.isPrefixOf q <;> simp [hp]

end Disk

end Workbench.Machine
