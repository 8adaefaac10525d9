import Workbench.Diagnostic.Extract
import Workbench.Proofs.Diagnostic.Reader
import Workbench.Proofs.Text.Lines

/-!
# Outputs in batches

An output is read line by line, and no line has an influence on what another one says:

* `extract_append` : the output of two runs, one after the other, has the diagnostics of both;
* `extract_joinLines` : so has the output of any number of runs, of none as well;
* `exists_places` : the results of a list stand at increasing places of it;
* `extract_by_lines` : diagnostics come in the order of their lines, one of each line that has any, and
  a line without any can be left out.
-/

namespace Workbench.Diagnostic

/-! ## One output after another -/

theorem extract_append (shapes : List Shape) (a b : String) :
    extract shapes (a ++ "\n" ++ b) = extract shapes a ++ extract shapes b := by
  unfold extract
  rw [Text.splitLines_append, List.filterMap_append]

/-- The empty line has no shape. -/
theorem find_nil (shape : Shape) : shape.find [] = none := by
  cases shape <;> rfl

theorem extract_of_silent {shapes : List Shape} {line : String} (h : OneLine line.toList)
    (hnone : ofLine? shapes line = none) : extract shapes line = [] := by
  unfold extract
  rw [Text.splitLines_of_not_mem h, List.filterMap_cons, hnone]
  rfl

theorem extract_empty (shapes : List Shape) : extract shapes "" = [] := by
  refine extract_of_silent List.not_mem_nil ?_
  refine List.findSome?_eq_none_iff.2 fun shape _ => ?_
  rw [String.toList_empty, find_nil]
  rfl

theorem extract_joinLines (shapes : List Shape) (outputs : List String) :
    extract shapes (Text.joinLines outputs) = outputs.flatMap (extract shapes) := by
  induction outputs with
  | nil => exact extract_empty shapes
  | cons a rest ih =>
    cases rest with
    | nil =>
      rw [List.flatMap_singleton]
      exact congrArg (extract shapes) String.ofList_toList
    | cons b rest => rw [Text.joinLines_cons_cons, extract_append, ih, ← List.flatMap_cons]

/-! ## The places of the diagnostics -/

/-- The results of a list stand at increasing places of it, and at all others there is none. -/
theorem exists_places {α β : Type} (f : α → Option β) (l : List α) :
    ∃ places : List Nat, places.Pairwise (· < ·) ∧
      places.map (fun i => l[i]?.bind f) = (l.filterMap f).map some ∧
      ∀ i, i ∉ places → l[i]?.bind f = none := by
  induction l with
  | nil => exact ⟨[], .nil, rfl, fun i _ => by rw [List.getElem?_nil]; rfl⟩
  | cons a l ih =>
    obtain ⟨places, hincreasing, hmap, hnone⟩ := ih
    have hlater : (places.map (· + 1)).Pairwise (· < ·) :=
      hincreasing.map _ fun i j h => Nat.succ_lt_succ h
    have hmap' : (places.map (· + 1)).map (fun i => (a :: l)[i]?.bind f) =
        (l.filterMap f).map some := by
      rw [List.map_map, ← hmap]
      rfl
    have hnone' : ∀ i, i + 1 ∉ places.map (· + 1) → (a :: l)[i + 1]?.bind f = none := by
      intro i hi
      rw [List.getElem?_cons_succ]
      exact hnone i fun h => hi (List.mem_map_of_mem h)
    cases ha : f a with
    | none =>
      refine ⟨places.map (· + 1), hlater, by rw [hmap', List.filterMap_cons_none ha], ?_⟩
      intro i hi
      cases i with
      | zero => exact ha
      | succ i => exact hnone' i hi
    | some b =>
      refine ⟨0 :: places.map (· + 1), ?_, ?_, ?_⟩
      · refine List.pairwise_cons.2 ⟨fun i hi => ?_, hlater⟩
        obtain ⟨j, -, rfl⟩ := List.mem_map.1 hi
        exact Nat.succ_pos j
      · rw [List.map_cons, hmap', List.filterMap_cons_some ha, List.map_cons, List.getElem?_cons_zero]
        exact congrArg (· :: _) ha
      · intro i hi
        cases i with
        | zero => exact absurd List.mem_cons_self hi
        | succ i => exact hnone' i fun h => hi (List.mem_cons_of_mem 0 h)

/-- An output is read line by line. Two outputs with a line feed between them have the diagnostics of
the first and then those of the second; every diagnostic has a line of its own, later ones later
lines, and all other lines have none; and a line that says nothing can be left out wherever it is. -/
theorem extract_by_lines (shapes : List Shape) :
    (∀ a b : String, extract shapes (a ++ "\n" ++ b) = extract shapes a ++ extract shapes b) ∧
      extract shapes "" = [] ∧
      (∀ output : String, ∃ places : List Nat, places.Pairwise (· < ·) ∧
        places.map (fun i => (Text.splitLines output)[i]?.bind (ofLine? shapes)) =
          (extract shapes output).map some ∧
        ∀ i, i ∉ places → (Text.splitLines output)[i]?.bind (ofLine? shapes) = none) ∧
      ∀ (before after : List String) (noise : String), OneLine noise.toList →
        ofLine? shapes noise = none →
        extract shapes (Text.joinLines (before ++ noise :: after)) =
          extract shapes (Text.joinLines (before ++ after)) := by
  refine ⟨extract_append shapes, extract_empty shapes,
    fun output => exists_places (ofLine? shapes) (Text.splitLines output), ?_⟩
  intro before after noise hone hnone
  rw [extract_joinLines, extract_joinLines, List.flatMap_append, List.flatMap_append,
    List.flatMap_cons, extract_of_silent hone hnone, List.nil_append]

/-- A line whose number is no number, between two that say the same. -/
theorem extract_by_lines_of_malformed :
    OneLine "file:abc:10: error: x".toList ∧ ofLine? Shape.all "file:abc:10: error: x" = none ∧
      extract Shape.all
          (Text.joinLines (["a.cple:1:1: error: dup"] ++ "file:abc:10: error: x" ::
            ["a.cple:1:1: error: dup"])) =
        [{ line := 0, column := 1, severity := .error, message := "dup" },
          { line := 0, column := 1, severity := .error, message := "dup" }] := by
  have hone : OneLine "file:abc:10: error: x".toList := by
    unfold OneLine
    decide
  have hnone : ofLine? Shape.all "file:abc:10: error: x" = none := by decide
  refine ⟨hone, hnone, ?_⟩
  rw [(extract_by_lines Shape.all).2.2.2 _ _ _ hone hnone]
  decide +kernel

end Workbench.Diagnostic
