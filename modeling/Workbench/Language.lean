import Workbench.Path

/-!
# Which files are sources

A file belongs to the language that the suffix of its name announces, in upper or lower case.
-/

namespace Workbench

/-- The languages that files are written in, as far as they matter here. -/
inductive Language
  | cple
  | unknown
  deriving DecidableEq, Repr

namespace Language

/-- The suffix of the sources that can be compiled. -/
def sourceSuffix : String := ".cple"

/-- The language of the file with this path. The case of the suffix does not matter; only ASCII
letters have to be compared, since no other letter has one of these as its lower case. -/
def ofPath (path : String) : Language :=
  if (Path.ofText path).suffix.toList.map Char.toLower = sourceSuffix.toList then .cple
  else .unknown

def name : Language → String
  | .cple => "cple"
  | .unknown => "unknown"

end Language

/-- Can the file be compiled? -/
def isSource (path : String) : Bool := Language.ofPath path = .cple

end Workbench
