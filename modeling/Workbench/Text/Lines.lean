/-!
# Lines of a text

* `splitOn sep s` : the pieces of `s` between the occurrences of `sep`, one more than there are of
  them; `joinWith sep` puts the pieces together again (`joinWith_splitOn`);
* `lines s` : the lines of a document. A line ends at a line feed, a carriage return or the pair of
  them, and at the other line boundaries of `isLineEnd`; a boundary at the end opens no new line;
* `unixNewlines s` : the text with every carriage return, alone or before a line feed, read as a
  line feed.
-/

namespace Workbench.Text

/-- The pieces of a text between the occurrences of a separator. -/
def splitOn (sep : Char) : List Char → List (List Char)
  | [] => [[]]
  | c :: s =>
    if c = sep then [] :: splitOn sep s
    else
      match splitOn sep s with
      | [] => [[c]]
      | piece :: pieces => (c :: piece) :: pieces

/-- The pieces with a separator between each two. -/
def joinWith {α : Type} (sep : α) : List (List α) → List α
  | [] => []
  | [piece] => piece
  | piece :: pieces => piece ++ sep :: joinWith sep pieces

theorem splitOn_ne_nil (sep : Char) (s : List Char) : splitOn sep s ≠ [] := by
  cases s with
  | nil => simp [splitOn]
  | cons c s =>
    rw [splitOn]
    split
    · simp
    · split <;> simp

theorem joinWith_splitOn (sep : Char) (s : List Char) : joinWith sep (splitOn sep s) = s := by
  induction s with
  | nil => rfl
  | cons c s ih =>
    rw [splitOn]
    split
    · next h =>
      subst h
      cases hs : splitOn c s with
      | nil => exact absurd hs (splitOn_ne_nil c s)
      | cons piece pieces => rw [hs] at ih; simp [joinWith, ih]
    · cases hs : splitOn sep s with
      | nil => exact absurd hs (splitOn_ne_nil sep s)
      | cons piece pieces =>
        rw [hs] at ih
        cases pieces <;> simpa [joinWith] using ih

/-- The pieces of a string between its line feeds. -/
def splitLines (s : String) : List String := (splitOn '\n' s.toList).map String.ofList

/-- The lines one after the other, with a line feed between each two. -/
def joinLines (lines : List String) : String :=
  String.ofList (joinWith '\n' (lines.map String.toList))

/-- The strings one after the other, with `sep` between each two. -/
def interleave (sep : String) : List String → String
  | [] => ""
  | [s] => s
  | s :: rest => s ++ sep ++ interleave sep rest

/-- The characters at which a line of a document ends. -/
def isLineEnd (c : Char) : Bool :=
  let n := c.toNat
  (10 ≤ n && n ≤ 13) || (28 ≤ n && n ≤ 30) || n == 0x85 || n == 0x2028 || n == 0x2029

/-- The lines of a document whose first line begins with `started`, read backwards. -/
def linesFrom (started : List Char) : List Char → List (List Char)
  | [] => if started.isEmpty then [] else [started.reverse]
  | '\r' :: '\n' :: s => started.reverse :: linesFrom [] s
  | c :: s => if isLineEnd c then started.reverse :: linesFrom [] s else linesFrom (c :: started) s

def lines (s : String) : List String := (linesFrom [] s.toList).map String.ofList

/-- Every carriage return, alone or before a line feed, becomes one line feed. -/
def unixNewlines : List Char → List Char
  | [] => []
  | '\r' :: '\n' :: s => '\n' :: unixNewlines s
  | c :: s => (if c = '\r' then '\n' else c) :: unixNewlines s

theorem unixNewlines_of_not_mem {s : List Char} (h : '\r' ∉ s) : unixNewlines s = s := by
  induction s with
  | nil => rfl
  | cons c s ih =>
    simp only [List.mem_cons, not_or] at h
    have hc : c ≠ '\r' := fun e => h.1 e.symm
    rw [unixNewlines]
    · simp [hc, ih h.2]
    · intro t ht _
      exact hc ht

end Workbench.Text
