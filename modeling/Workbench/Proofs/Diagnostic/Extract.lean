import Workbench.Proofs.Diagnostic.Origin
import Workbench.Proofs.Diagnostic.Printing

/-!
# What an output says

* `oneLine_of_extract` : the message of a diagnostic is within a line of the output, so there is no
  line feed in it;
* `extract_of_firstOccurs` : an output of one printed message has the diagnostic of that message;
* `messageAt column` : such a message, about a column of the first line.
-/

namespace Workbench.Diagnostic

open Number (digitBound)
open Text (trim)

/-- No message holds a line feed. -/
theorem oneLine_of_extract {shapes : List Shape} {output : String} {d : Diagnostic}
    (h : d ∈ extract shapes output) : OneLine d.message.toList := by
  obtain ⟨line, hline, hd⟩ := List.mem_filterMap.1 h
  obtain ⟨_, _, _, _, hread⟩ := readFrom_of_ofLine? (Text.not_mem_of_mem_splitLines hline) hd
  exact hread.message_oneLine

/-! ## One message -/

theorem extract_of_firstOccurs {p : Printed} (h : p.Clear) {i : Nat}
    (hfirst : Shape.located.FirstOccurs p.text.toList i p.fields) :
    extract Shape.all p.text = [p.diagnostic] := by
  have hread : ofLine? Shape.all p.text = some p.diagnostic :=
    ofLine?_cons_of_firstOccurs h hfirst
  unfold extract
  rw [Text.splitLines_of_not_mem h.oneLine_text, List.filterMap_cons, hread]
  rfl

/-- An error about a column of the first line. -/
def messageAt (column : Nat) : Printed := ⟨.located "a.cple" column .error "error", 1, "x"⟩

theorem clear_messageAt {column : Nat} (h : column < digitBound) : (messageAt column).Clear where
  line_pos := Nat.le_refl 1
  line_lt := Number.lt_digitBound (n := 1) (k := 1) (by decide) (by decide)
  message_ne := show "x" ≠ "" by decide
  message_oneLine := show '\n' ∉ "x".toList by decide
  message_trim := show trim "x".toList = "x".toList by decide
  suits := by
    refine ⟨by unfold Names; decide, h, by decide, by unfold OneLine; decide, by decide, ?_⟩
    intro u c v hfile
    have hcolon : ':' ∈ "a.cple".toList := hfile ▸ by simp
    exact absurd hcolon (by decide)

theorem extract_messageAt {column : Nat} (h : column < digitBound) :
    extract Shape.all (messageAt column).text = [(messageAt column).diagnostic] :=
  extract_of_firstOccurs (clear_messageAt h) (clear_messageAt h).firstOccurs_located

/-- The last column that can be read has a digit more when it is counted from one. -/
theorem last_column_succ : (messageAt (digitBound - 1)).diagnostic.column + 1 = digitBound := by
  have hpos := Number.digitBound_pos
  show ((digitBound - 1 : Nat) : Int) + 1 = digitBound
  omega

end Workbench.Diagnostic
