import Workbench.Text.Lines

/-!
# Splitting a text at a separator

* `splitOn_of_not_mem` : a text without the separator is one piece;
* `not_mem_of_mem_splitOn` : no piece holds the separator;
* `splitOn_append` : two texts with a separator between them have the pieces of both;
* `splitOn_joinWith` : pieces that were put together are found again;
* `splitLines_append`, `joinLines_cons_cons` : the same of strings and their lines;
* `startOf pieces i` : where a piece begins when all are put together (`joinWith_eq_append`).
-/

namespace Workbench.Text

variable {sep : Char} {s t piece : List Char}

theorem splitOn_of_not_mem (h : sep ∉ s) : splitOn sep s = [s] := by
  induction s with
  | nil => rfl
  | cons c s ih =>
    simp only [List.mem_cons, not_or] at h
    rw [splitOn, if_neg (Ne.symm h.1), ih h.2]

theorem not_mem_of_mem_splitOn (h : piece ∈ splitOn sep s) : sep ∉ piece := by
  induction s generalizing piece with
  | nil =>
    obtain rfl := List.mem_singleton.1 h
    exact List.not_mem_nil
  | cons c s ih =>
    rw [splitOn] at h
    split at h
    · rcases List.mem_cons.1 h with rfl | h
      · exact List.not_mem_nil
      · exact ih h
    · next hc =>
      cases hs : splitOn sep s with
      | nil => exact absurd hs (splitOn_ne_nil sep s)
      | cons first rest =>
        rw [hs] at h ih
        rcases List.mem_cons.1 h with rfl | h
        · have hfirst : sep ∉ first := ih List.mem_cons_self
          simp only [List.mem_cons, not_or]
          exact ⟨Ne.symm hc, hfirst⟩
        · exact ih (List.mem_cons_of_mem first h)

theorem splitOn_append (sep : Char) (s t : List Char) :
    splitOn sep (s ++ sep :: t) = splitOn sep s ++ splitOn sep t := by
  induction s with
  | nil => simp [splitOn]
  | cons c s ih =>
    rw [List.cons_append, splitOn, splitOn, ih]
    split
    · rfl
    · cases hs : splitOn sep s with
      | nil => exact absurd hs (splitOn_ne_nil sep s)
      | cons first rest => rfl

/-! ## Pieces put together -/

theorem joinWith_cons_cons {α : Type} (sep : α) (piece next : List α) (pieces : List (List α)) :
    joinWith sep (piece :: next :: pieces) = piece ++ sep :: joinWith sep (next :: pieces) := rfl

theorem joinWith_cons (sep : Char) (piece : List Char) (pieces : List (List Char)) :
    joinWith sep (piece :: pieces) = piece ++ pieces.flatMap (sep :: ·) := by
  induction pieces generalizing piece with
  | nil => simp [joinWith]
  | cons next pieces ih => rw [joinWith_cons_cons, ih next, List.flatMap_cons, List.cons_append]

theorem splitOn_joinWith {pieces : List (List Char)} (hne : pieces ≠ [])
    (h : ∀ piece ∈ pieces, sep ∉ piece) : splitOn sep (joinWith sep pieces) = pieces := by
  induction pieces with
  | nil => exact absurd rfl hne
  | cons piece pieces ih =>
    obtain ⟨hpiece, hpieces⟩ := List.forall_mem_cons.1 h
    cases pieces with
    | nil => exact splitOn_of_not_mem hpiece
    | cons next pieces =>
      rw [joinWith_cons_cons, splitOn_append, splitOn_of_not_mem hpiece,
        ih (List.cons_ne_nil next pieces) hpieces]
      rfl

/-! ## Strings -/

theorem splitLines_of_not_mem {line : String} (h : '\n' ∉ line.toList) :
    splitLines line = [line] := by
  unfold splitLines
  rw [splitOn_of_not_mem h, List.map_singleton, String.ofList_toList]

theorem not_mem_of_mem_splitLines {line text : String} (h : line ∈ splitLines text) :
    '\n' ∉ line.toList := by
  obtain ⟨piece, hpiece, rfl⟩ := List.mem_map.1 h
  rw [String.toList_ofList]
  exact not_mem_of_mem_splitOn hpiece

theorem splitLines_append (a b : String) :
    splitLines (a ++ "\n" ++ b) = splitLines a ++ splitLines b := by
  have hlist : (a ++ "\n" ++ b).toList = a.toList ++ '\n' :: b.toList := by
    rw [String.toList_append, String.toList_append, List.append_assoc]
    rfl
  unfold splitLines
  rw [hlist, splitOn_append, List.map_append]

theorem joinLines_cons_cons (a b : String) (rest : List String) :
    joinLines (a :: b :: rest) = a ++ "\n" ++ joinLines (b :: rest) := by
  rw [← String.toList_inj, String.toList_append, String.toList_append]
  unfold joinLines
  simp only [String.toList_ofList, List.map_cons, joinWith_cons_cons, List.append_assoc]
  rfl

/-! ## Places of pieces -/

/-- The number of characters before a piece, when all pieces are put together. -/
def startOf (pieces : List (List Char)) (i : Nat) : Nat :=
  (pieces.take i).foldr (fun piece n => piece.length + 1 + n) 0

theorem startOf_succ (piece : List Char) (pieces : List (List Char)) (i : Nat) :
    startOf (piece :: pieces) (i + 1) = piece.length + 1 + startOf pieces i := rfl

theorem joinWith_eq_append (sep : Char) {pieces : List (List Char)} {i : Nat}
    (h : pieces[i]? = some piece) : ∃ before after,
      joinWith sep pieces = before ++ piece ++ after ∧ before.length = startOf pieces i := by
  induction pieces generalizing i with
  | nil => exact nomatch h
  | cons first rest ih =>
    cases i with
    | zero =>
      obtain rfl := Option.some.inj h
      exact ⟨[], rest.flatMap (sep :: ·), joinWith_cons sep first rest, rfl⟩
    | succ i =>
      rw [List.getElem?_cons_succ] at h
      obtain ⟨before, after, hrest, hlength⟩ := ih h
      cases rest with
      | nil => exact nomatch h
      | cons next rest =>
        refine ⟨first ++ sep :: before, after, ?_, ?_⟩
        · rw [joinWith_cons_cons, hrest]
          simp
        · rw [startOf_succ, ← hlength, List.length_append, List.length_cons]
          omega

end Workbench.Text
