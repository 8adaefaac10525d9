import Workbench.Machine.Basic
import Workbench.Number.Fixed
import Workbench.Record

/-!
# Listings of directories

A listing says what is directly inside a directory, in the order of the names. Comparing the
listings from before and after a compilation shows what the compiler made.

* `Listing.of m directory` : the listing of a directory;
* `Listing.created before after` : the entries of the later listing whose names are not in the
  earlier one.
-/

namespace Workbench

/-- A file or directory inside another directory. -/
structure Entry where
  name : String
  isDirectory : Bool
  size : Nat
  deriving DecidableEq, Repr

namespace Entry

/-- The mark of an entry in a list. -/
def kind (e : Entry) : String := if e.isDirectory then "[DIR]" else "[FILE]"

/-- The size in units of 1024 bytes, with two places. -/
def kilobytes (e : Entry) : String := Number.fixed2 (Number.ofRatio false e.size 1024)

end Entry

/-- Entries under their names. -/
abbrev Listing := Record String Entry

namespace Listing

/-- The listing of entries; of two with one name the later one counts, at the earlier place. -/
def ofEntries (entries : List Entry) : Listing := Record.ofList (entries.map fun e => (e.name, e))

/-- The entries for names in a directory. A name that is gone by now has none. -/
def entriesFor (m : Machine) (directory : Path) : List String → Except Failure (List Entry)
  | [] => .ok []
  | name :: rest =>
    match m.stat (Path.mk directory.root (directory.parts ++ [name])).text with
    | .error (.os e) =>
      if e.fault = .missing then entriesFor m directory rest else .error (.os e)
    | .error e => .error e
    | .ok node =>
      match entriesFor m directory rest with
      | .ok es => .ok ({ name, isDirectory := node.isDirectory, size := node.size } :: es)
      | .error e => .error e

def of (m : Machine) (directory : String) : Except Failure Listing :=
  let p := Path.ofText directory
  match m.listDirectory p.text with
  | .error e => .error e
  | .ok names => (entriesFor m p (names.mergeSort (· ≤ ·))).map ofEntries

/-- The entries of the later listing that are new. -/
def created (before after : Listing) : List Entry :=
  after.values.filter fun e => e.name ∉ before.keys

end Listing

end Workbench
