import Workbench.Diagnostic.Shape
import Workbench.Text.Lines

/-!
# Diagnostics of a compiler's output

* `extract shapes output` : the diagnostics of the lines of an output, in their order; a line of no
  known shape is passed over;
* `Collection.publish` : the diagnostics of an output filed for a document. An output without
  diagnostics leaves the collection as it is.
-/

namespace Workbench

namespace Diagnostic

def extract (shapes : List Shape) (output : String) : List Diagnostic :=
  (Text.splitLines output).filterMap (ofLine? shapes)

end Diagnostic

/-- The collection with the diagnostics of an output filed for a document, and these. -/
def Collection.publish (c : Collection) (document output : String) :
    Collection × List Diagnostic :=
  let ds := Diagnostic.extract Diagnostic.Shape.all output
  (if ds = [] then c else Record.put c document ds, ds)

end Workbench
