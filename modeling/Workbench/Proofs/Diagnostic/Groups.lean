import Mathlib.Algebra.Ring.Nat
import Workbench.Proofs.Record
import Workbench.Proofs.Session

/-!
# Diagnostics by line

* `get_groupByLine` : the group of a line has the diagnostics of that line, in their order;
* `keys_groupByLine`, `keys_groupByLine_concat` : the lines that have a group, in the order in which
  they are first seen;
* `groupByLine_eq_map` : both together determine the groups;
* `worst_forLine`, `worst_eq_error_iff`, `forLine_eq_nil_iff` : what a line is marked with;
* `GroupedByLine`, `groups_of_filed` : the groups against what a session says about its lines.
-/

namespace Workbench

namespace Record

variable {κ α β : Type} [DecidableEq κ]

/-- The names after a value is put depend on the names before only. -/
theorem keys_put_congr {r : Record κ α} {s : Record κ β} (h : r.keys = s.keys) (k : κ) (v : α)
    (w : β) : (r.put k v).keys = (s.put k w).keys := by
  rw [keys_put, keys_put, h]

end Record

namespace Diagnostic

/-! ## One diagnostic -/

theorem get_eq_getD (groups : Groups) (line : Int) :
    groups.get line = (Record.get? groups line).getD [] := by
  induction groups with
  | nil => rfl
  | cons group groups ih =>
    obtain ⟨line', ds⟩ := group
    rw [Groups.get, Record.get?_cons]
    split
    · rfl
    · exact ih

/-- A diagnostic goes to the end of the group of its line. -/
theorem add_eq_put (groups : Groups) (d : Diagnostic) :
    groups.add d = Record.put groups d.line (groups.get d.line ++ [d]) := by
  induction groups with
  | nil => rfl
  | cons group groups ih =>
    obtain ⟨line, ds⟩ := group
    rw [Groups.add, Record.put, Groups.get]
    split
    · rfl
    · rw [ih]

theorem get_add (groups : Groups) (d : Diagnostic) (line : Int) :
    (groups.add d).get line = groups.get line ++ if d.line = line then [d] else [] := by
  rw [add_eq_put, get_eq_getD, Record.get?_put]
  split
  · next h =>
    rw [h]
    rfl
  · rw [← get_eq_getD, List.append_nil]

/-! ## All diagnostics -/

/-- The group of a line has the diagnostics of that line, in their order. -/
theorem get_groupByLine (ds : List Diagnostic) (line : Int) :
    (groupByLine ds).get line = forLine ds line := by
  have hfold : ∀ groups : Groups, (ds.foldl (fun groups d => groups.add d) groups).get line =
      groups.get line ++ forLine ds line := by
    induction ds with
    | nil => exact fun groups => (List.append_nil _).symm
    | cons d ds ih =>
      intro groups
      rw [List.foldl_cons, ih, get_add, List.append_assoc]
      by_cases hline : d.line = line <;> simp [forLine, hline]
  exact hfold []

theorem groupByLine_concat (ds : List Diagnostic) (d : Diagnostic) :
    groupByLine (ds ++ [d]) = (groupByLine ds).add d := List.foldl_concat ..

/-- A line that has no group yet gets one after the others. -/
theorem keys_groupByLine_concat (ds : List Diagnostic) (d : Diagnostic) :
    Record.keys (groupByLine (ds ++ [d])) =
      if d.line ∈ Record.keys (groupByLine ds) then Record.keys (groupByLine ds)
      else Record.keys (groupByLine ds) ++ [d.line] := by
  rw [groupByLine_concat, add_eq_put, Record.keys_put]

theorem keys_groupByLine (ds : List Diagnostic) :
    Record.keys (groupByLine ds) = (ds.map Diagnostic.line).eraseDups := by
  -- the lines of the groups are the names of a record into which only the lines are put
  have hfold : ∀ (groups : Groups) (r : Record Int Unit), Record.keys groups = r.keys →
      Record.keys (ds.foldl (fun (groups : Groups) d => groups.add d) groups) =
        Record.keys (r.merge (ds.map fun d => (d.line, ()))) := by
    induction ds with
    | nil => exact fun groups r h => h
    | cons d ds ih =>
      intro groups r h
      refine ih (groups.add d) (r.put d.line ()) ?_
      rw [add_eq_put]
      exact Record.keys_put_congr h d.line _ ()
  calc Record.keys (groupByLine ds)
      = Record.keys (Record.ofList (ds.map fun d => (d.line, ()))) := hfold [] [] rfl
    _ = Record.firstNames (ds.map fun d => (d.line, ())) := Record.keys_ofList _
    _ = (ds.map Diagnostic.line).eraseDups := congrArg List.eraseDups List.map_map

theorem mem_keys_groupByLine {ds : List Diagnostic} {line : Int} :
    line ∈ Record.keys (groupByLine ds) ↔ ∃ d ∈ ds, d.line = line := by
  rw [keys_groupByLine, List.mem_eraseDups, List.mem_map]

/-- The line of an earlier group is seen before that of a later one. -/
theorem pairwise_keys_groupByLine (ds : List Diagnostic) :
    (Record.keys (groupByLine ds)).Pairwise fun line line' =>
      (ds.map Diagnostic.line).idxOf line < (ds.map Diagnostic.line).idxOf line' := by
  induction ds using List.reverseRecOn with
  | nil => exact List.Pairwise.nil
  | append_singleton ds d ih =>
    have hseen : ∀ {line : Int}, line ∈ Record.keys (groupByLine ds) →
        line ∈ ds.map Diagnostic.line := fun h => List.mem_map.2 (mem_keys_groupByLine.1 h)
    -- where a line is first seen does not change with what comes later
    have hold : (Record.keys (groupByLine ds)).Pairwise fun line line' =>
        (ds.map Diagnostic.line ++ [d.line]).idxOf line <
          (ds.map Diagnostic.line ++ [d.line]).idxOf line' := by
      refine ih.imp_of_mem fun {line line'} h h' hless => ?_
      rwa [List.idxOf_append_of_mem (hseen h), List.idxOf_append_of_mem (hseen h')]
    rw [keys_groupByLine_concat, List.map_append, List.map_singleton]
    split
    · exact hold
    · next hnew =>
      have hnew : d.line ∉ ds.map Diagnostic.line :=
        fun h => hnew (mem_keys_groupByLine.2 (List.mem_map.1 h))
      refine List.pairwise_append.2 ⟨hold, List.pairwise_singleton _ _, fun line h line' h' => ?_⟩
      obtain rfl := List.eq_of_mem_singleton h'
      rw [List.idxOf_append_of_mem (hseen h), List.idxOf_append_of_notMem hnew]
      exact Nat.lt_of_lt_of_le (List.idxOf_lt_length_iff.2 (hseen h)) (Nat.le_add_right _ _)

theorem nodup_keys_groupByLine (ds : List Diagnostic) : (Record.keys (groupByLine ds)).Nodup :=
  (pairwise_keys_groupByLine ds).imp fun {line line'} h (he : line = line') =>
    Nat.lt_irrefl _ (he ▸ h)

/-- Each line has the group of its diagnostics. -/
theorem groupByLine_eq_map (ds : List Diagnostic) :
    groupByLine ds = (Record.keys (groupByLine ds)).map fun line => (line, forLine ds line) := by
  have hget : ∀ {groups : Groups}, (Record.keys groups).Nodup →
      groups = (Record.keys groups).map fun line => (line, groups.get line) := by
    intro groups h
    induction groups with
    | nil => rfl
    | cons group groups ih =>
      obtain ⟨line, ds⟩ := group
      obtain ⟨hline, hnodup⟩ := List.nodup_cons.1 h
      have hrest : ∀ line' ∈ Record.keys groups,
          (line', Groups.get ((line, ds) :: groups) line') = (line', Groups.get groups line') := by
        intro line' hline'
        rw [Groups.get, if_neg fun he : line = line' => hline (he ▸ hline')]
      rw [Record.keys_cons, List.map_cons, List.map_congr_left hrest, ← ih hnodup, Groups.get,
        if_pos rfl]
  have h := hget (nodup_keys_groupByLine ds)
  simpa only [get_groupByLine] using h

theorem forLine_eq_nil_iff {ds : List Diagnostic} {line : Int} :
    forLine ds line = [] ↔ ¬ ∃ d ∈ ds, d.line = line := by
  simp [forLine, List.filter_eq_nil_iff]

/-- No diagnostic is lost and none is in two groups. -/
theorem sum_length_groupByLine (ds : List Diagnostic) :
    ((groupByLine ds).map fun group => group.2.length).sum = ds.length := by
  have hall : ∀ d ∈ ds, d.line ∈ Record.keys (groupByLine ds) :=
    fun d h => mem_keys_groupByLine.2 ⟨d, h, rfl⟩
  have hparts := (splitByLine_forLine ds).perm _ (nodup_keys_groupByLine ds) hall
  rw [groupByLine_eq_map, List.map_map, ← hparts.length_eq, List.length_flatMap]
  rfl

/-! ## Severities -/

theorem worst_eq_error_iff {ds : List Diagnostic} :
    worst ds = .error ↔ ∃ d ∈ ds, d.severity = .error := by
  have hany : hasErrors ds = true ↔ ∃ d ∈ ds, d.severity = .error := by
    simp [hasErrors, isError]
  rw [← hany, worst]
  cases hasErrors ds <;> simp

theorem worst_forLine (ds : List Diagnostic) (line : Int) : worst (forLine ds line) =
    if ∃ d ∈ ds, d.line = line ∧ d.severity = .error then .error else .warning := by
  have hsome : hasErrors (forLine ds line) = true ↔
      ∃ d ∈ ds, d.line = line ∧ d.severity = .error := by
    simp [hasErrors, forLine, isError]
  unfold worst
  by_cases h : ∃ d ∈ ds, d.line = line ∧ d.severity = .error
  · rw [if_pos (hsome.2 h), if_pos h]
  · rw [if_neg (mt hsome.1 h), if_neg h]

/-- The worst of all groups is the worst of all diagnostics. -/
theorem exists_worst_groupByLine_iff (ds : List Diagnostic) :
    (∃ group ∈ groupByLine ds, worst group.2 = .error) ↔ worst ds = .error := by
  rw [groupByLine_eq_map]
  constructor
  · rintro ⟨group, hgroup, hworst⟩
    obtain ⟨line, -, rfl⟩ := List.mem_map.1 hgroup
    obtain ⟨d, hd, herror⟩ := worst_eq_error_iff.1 hworst
    exact worst_eq_error_iff.2 ⟨d, (mem_forLine.1 hd).1, herror⟩
  · intro hworst
    obtain ⟨d, hd, herror⟩ := worst_eq_error_iff.1 hworst
    have hline : d.line ∈ Record.keys (groupByLine ds) := mem_keys_groupByLine.2 ⟨d, hd, rfl⟩
    exact ⟨_, List.mem_map_of_mem hline, worst_eq_error_iff.2 ⟨d, mem_forLine.2 ⟨hd, rfl⟩, herror⟩⟩

/-! ## The groups and the session -/

/-- Diagnostics in groups: the lines of the groups are those of the diagnostics, without repeats and
in the order in which they are first seen, and the group of a line has the diagnostics of that line
in their order. -/
structure GroupedByLine (ds : List Diagnostic) (groups : Groups) : Prop where
  lines_eq : Record.keys groups = (ds.map line).eraseDups
  nodup : (Record.keys groups).Nodup
  firstSeen : (Record.keys groups).Pairwise fun l l' => (ds.map line).idxOf l < (ds.map line).idxOf l'
  get_eq : ∀ l, groups.get l = ds.filter fun d => d.line = l
  group_eq : ∀ l group, (l, group) ∈ groups → group = ds.filter fun d => d.line = l
  empty : ∀ l, (∀ d ∈ ds, d.line ≠ l) → groups.get l = []
  sum_length : (groups.map fun group => group.2.length).sum = ds.length

theorem groupedByLine_groupByLine (ds : List Diagnostic) : GroupedByLine ds (groupByLine ds) where
  lines_eq := keys_groupByLine ds
  nodup := nodup_keys_groupByLine ds
  firstSeen := pairwise_keys_groupByLine ds
  get_eq := get_groupByLine ds
  group_eq l group h := by
    rw [groupByLine_eq_map] at h
    obtain ⟨_, -, he⟩ := List.mem_map.1 h
    obtain ⟨rfl, rfl⟩ := Prod.mk.inj he
    rfl
  empty l h := by
    rw [get_groupByLine, forLine_eq_nil_iff]
    exact fun ⟨d, hd, hline⟩ => h d hd hline
  sum_length := sum_length_groupByLine ds

end Diagnostic

open Diagnostic in
/-- The groups of diagnostics against a session for whose document they are filed: the group of a
line is what the session says about the line, a group is marked as an error if it has one, and some
group is so exactly if the session has errors. -/
theorem groups_of_filed (s : Session) (ds : List Diagnostic) :
    GroupedByLine ds (groupByLine ds) ∧
    (s.file s.path ds).diagnostics = ds ∧
    (∀ line, (groupByLine ds).get line = forLine (s.file s.path ds).diagnostics line) ∧
    (∀ group ∈ groupByLine ds, worst group.2 = .error ↔ ∃ d ∈ group.2, d.severity = .error) ∧
    ((∃ group ∈ groupByLine ds, worst group.2 = .error) ↔
      (s.file s.path ds).hasErrors = true) := by
  have hfiled : (s.file s.path ds).diagnostics = ds :=
    Session.Step.of_apply_of_puts (.file ds) s
  refine ⟨groupedByLine_groupByLine ds, hfiled, ?_, fun _ _ => worst_eq_error_iff, ?_⟩
  · rw [hfiled]
    exact get_groupByLine ds
  · rw [exists_worst_groupByLine_iff, Session.hasErrors, hfiled, worst]
    cases hasErrors ds <;> simp

end Workbench
