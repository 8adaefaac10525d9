import Workbench.Proofs.Text.Lines

/-!
# Line ends and line feeds

Messages about a text count its lines by line feeds, while `lines` ends a line at other characters as
well.

* `feedLines s` : the lines of a text that line feeds end;
* `Unended s` : a text without a line end of any kind, as every line is (`unended_of_mem_lines`);
* `take_lines_iff` : the first lines are those that line feeds end exactly if none of these holds
  another line end;
* `lines_eq_feedLines_iff` : the same for all lines.
-/

namespace Workbench.Text

variable {p s t line : List Char}

/-- The pieces between the line feeds of a text; a line feed at the end opens no new line. -/
def feedPieces (s : List Char) : List (List Char) :=
  if s = [] ∨ s.getLast? = some '\n' then (splitOn '\n' s).dropLast else splitOn '\n' s

/-- The lines of a text that line feeds end. -/
def feedLines (s : String) : List String := (feedPieces s.toList).map String.ofList

theorem feedPieces_of_not_mem (h : '\n' ∉ s) : feedPieces s = if s = [] then [] else [s] := by
  have hlast : s.getLast? ≠ some '\n' := fun hlast => h (List.mem_of_getLast? hlast)
  unfold feedPieces
  rw [splitOn_of_not_mem h]
  by_cases hs : s = []
  · rw [if_pos (.inl hs), if_pos hs]
    rfl
  · rw [if_neg (not_or.2 ⟨hs, hlast⟩), if_neg hs]

theorem feedPieces_append (h : '\n' ∉ p) (s : List Char) :
    feedPieces (p ++ '\n' :: s) = p :: feedPieces s := by
  have hne : p ++ '\n' :: s ≠ [] := List.append_ne_nil_of_right_ne_nil p (List.cons_ne_nil _ _)
  have hlast : (p ++ '\n' :: s).getLast? = some '\n' ↔ s = [] ∨ s.getLast? = some '\n' := by
    cases s with
    | nil => simp
    | cons c s => simp [List.getLast?_append, List.getLast?_cons_cons]
  unfold feedPieces
  simp only [hne, false_or, hlast, splitOn_append, splitOn_of_not_mem h, List.singleton_append]
  split
  · exact List.dropLast_cons_of_ne_nil (splitOn_ne_nil '\n' s)
  · rfl

/-- A text is a line of its own, or it begins with one that a line feed ends. -/
theorem not_mem_or_exists_append (s : List Char) :
    '\n' ∉ s ∨ ∃ p t, '\n' ∉ p ∧ s = p ++ '\n' :: t := by
  by_cases h : '\n' ∈ s
  · obtain ⟨p, t, hs, hp⟩ := List.eq_append_cons_of_mem h
    exact .inr ⟨p, t, hp, hs⟩
  · exact .inl h

/-- The lines have all characters of the text but the line feeds. -/
theorem flatten_feedPieces (s : List Char) : (feedPieces s).flatten = s.filter (· ≠ '\n') := by
  have hkeep : ∀ {p : List Char}, '\n' ∉ p → p.filter (· ≠ '\n') = p := fun hp =>
    List.filter_eq_self.2 fun c hc => decide_eq_true fun he => hp (he ▸ hc)
  rcases not_mem_or_exists_append s with hs | ⟨p, t, hp, hs⟩
  · rw [feedPieces_of_not_mem hs, hkeep hs]
    split
    · next hnil => exact hnil.symm
    · exact List.append_nil s
  · have hless : t.length < s.length := by
      rw [hs, List.length_append, List.length_cons]
      omega
    rw [hs, feedPieces_append hp, List.flatten_cons, flatten_feedPieces t, List.filter_append,
      hkeep hp]
    rfl
termination_by s.length

/-! ## Lines that end anywhere -/

/-- The text has no line end. -/
def Unended (s : List Char) : Prop := ∀ c ∈ s, isLineEnd c = false

instance (s : List Char) : Decidable (Unended s) := List.decidableBAll _ s

theorem Unended.not_mem (h : Unended s) : '\n' ∉ s :=
  fun hmem => absurd (h _ hmem) (by decide)

theorem linesFrom_cons {c : Char} (h : c ≠ '\r') (started s : List Char) :
    linesFrom started (c :: s) =
      if isLineEnd c then started.reverse :: linesFrom [] s else linesFrom (c :: started) s := by
  rw [linesFrom]
  intro t ht _
  exact h ht

/-- All characters up to a line end are one line. -/
theorem linesFrom_append (hp : Unended p) (started s : List Char) :
    linesFrom started (p ++ s) = linesFrom (p.reverse ++ started) s := by
  induction p generalizing started with
  | nil => rfl
  | cons c p ih =>
    obtain ⟨hc, hp⟩ := List.forall_mem_cons.1 hp
    have hreturn : c ≠ '\r' := by
      rintro rfl
      exact absurd hc (by decide)
    rw [List.cons_append, linesFrom_cons hreturn, hc, if_neg Bool.false_ne_true, ih hp,
      List.reverse_cons, List.append_assoc]
    rfl

theorem linesFrom_append_feed (hp : Unended p) (s : List Char) :
    linesFrom [] (p ++ '\n' :: s) = p :: linesFrom [] s := by
  rw [linesFrom_append hp, linesFrom_cons (by decide), if_pos (by decide), List.append_nil,
    List.reverse_reverse]

theorem linesFrom_of_unended (hs : Unended s) : linesFrom [] s = if s = [] then [] else [s] := by
  have h := linesFrom_append hs [] []
  rw [List.append_nil, List.append_nil, linesFrom, List.reverse_reverse] at h
  simpa using h

theorem unended_nil : Unended [] := fun _ hc => absurd hc List.not_mem_nil

theorem Unended.reverse (h : Unended s) : Unended s.reverse := fun c hc => h c (List.mem_reverse.1 hc)

theorem unended_of_mem_linesFrom {started : List Char} (hstarted : Unended started)
    (h : line ∈ linesFrom started s) : Unended line := by
  induction started, s using linesFrom.induct with
  | case1 started hempty =>
    rw [linesFrom, if_pos hempty] at h
    exact absurd h List.not_mem_nil
  | case2 started hmore =>
    rw [linesFrom, if_neg hmore] at h
    exact List.mem_singleton.1 h ▸ hstarted.reverse
  | case3 started s ih =>
    rw [linesFrom] at h
    rcases List.mem_cons.1 h with rfl | h
    · exact hstarted.reverse
    · exact ih unended_nil h
  | case4 started c s hpair hend ih =>
    rw [linesFrom.eq_3 started c s hpair, if_pos hend] at h
    rcases List.mem_cons.1 h with rfl | h
    · exact hstarted.reverse
    · exact ih unended_nil h
  | case5 started c s hpair hend ih =>
    rw [linesFrom.eq_3 started c s hpair, if_neg hend] at h
    exact ih (List.forall_mem_cons.2 ⟨Bool.eq_false_iff.2 hend, hstarted⟩) h

/-! ## Where the two agree -/

/-- The first lines are those that line feeds end, exactly as far as these hold no line end of
another kind. -/
theorem take_linesFrom_iff (n : Nat) (s : List Char) :
    (linesFrom [] s).take n = (feedPieces s).take n ↔
      ∀ line ∈ (feedPieces s).take n, Unended line := by
  constructor
  · intro h line hline
    rw [← h] at hline
    exact unended_of_mem_linesFrom unended_nil (List.mem_of_mem_take hline)
  · -- Induction on the number of lines: the first of them, being unended, is taken off on both sides.
    intro h
    induction n generalizing s with
    | zero => rfl
    | succ n ih =>
      rcases not_mem_or_exists_append s with hs | ⟨p, t, hp, rfl⟩
      · rw [feedPieces_of_not_mem hs] at h ⊢
        by_cases hnil : s = []
        · subst hnil
          rfl
        · rw [if_neg hnil] at h ⊢
          have hunended : Unended s := h s (by simp)
          rw [linesFrom_of_unended hunended, if_neg hnil]
      · rw [feedPieces_append hp, List.take_succ_cons] at h ⊢
        obtain ⟨hfirst, hrest⟩ := List.forall_mem_cons.1 h
        rw [linesFrom_append_feed hfirst, List.take_succ_cons, ih t hrest]

theorem linesFrom_eq_iff (s : List Char) :
    linesFrom [] s = feedPieces s ↔ ∀ line ∈ feedPieces s, Unended line := by
  constructor
  · intro h line hline
    exact unended_of_mem_linesFrom unended_nil (h ▸ hline)
  · intro h
    have htake : ∀ n, (linesFrom [] s).take n = (feedPieces s).take n := fun n =>
      (take_linesFrom_iff n s).2 fun line hline => h line (List.mem_of_mem_take hline)
    refine List.ext_getElem? fun n => ?_
    rw [← List.getElem?_take_of_lt (Nat.lt_succ_self n), htake,
      List.getElem?_take_of_lt (Nat.lt_succ_self n)]

/-- The lines hold all characters of the text but the line feeds. -/
theorem unended_feedPieces_iff (s : List Char) : (∀ line ∈ feedPieces s, Unended line) ↔
    ∀ c ∈ s, isLineEnd c = true → c = '\n' := by
  have hflatten := flatten_feedPieces s
  constructor
  · intro h c hc hend
    refine Decidable.byContradiction fun hne => ?_
    have hmem : c ∈ (feedPieces s).flatten := by
      rw [hflatten]
      exact List.mem_filter.2 ⟨hc, decide_eq_true hne⟩
    obtain ⟨line, hline, hcline⟩ := List.mem_flatten.1 hmem
    rw [h line hline c hcline] at hend
    exact Bool.noConfusion hend
  · intro h line hline c hc
    have hmem : c ∈ s.filter (· ≠ '\n') := hflatten ▸ List.mem_flatten.2 ⟨line, hline, hc⟩
    obtain ⟨hcs, hne⟩ := List.mem_filter.1 hmem
    exact Bool.eq_false_iff.2 fun hend => of_decide_eq_true hne (h c hcs hend)

/-! ## The lines of strings -/

theorem unended_toList_iff {pieces : List (List Char)} :
    (∀ line ∈ pieces.map String.ofList, Unended line.toList) ↔ ∀ piece ∈ pieces, Unended piece := by
  rw [List.forall_mem_map]
  simp only [String.toList_ofList]

theorem map_ofList_inj {pieces pieces' : List (List Char)} :
    pieces.map String.ofList = pieces'.map String.ofList ↔ pieces = pieces' :=
  List.map_inj_right fun _ _ h => String.ofList_inj.1 h

/-- The first lines of a document are those that line feeds end, exactly as far as these hold no line
end of another kind. -/
theorem take_lines_iff (n : Nat) (s : String) :
    (lines s).take n = (feedLines s).take n ↔
      ∀ line ∈ (feedLines s).take n, Unended line.toList := by
  rw [lines, feedLines, ← List.map_take, ← List.map_take, map_ofList_inj, unended_toList_iff]
  exact take_linesFrom_iff n s.toList

theorem lines_eq_feedLines_iff (s : String) :
    lines s = feedLines s ↔ ∀ c ∈ s.toList, isLineEnd c = true → c = '\n' := by
  rw [lines, feedLines, map_ofList_inj, linesFrom_eq_iff]
  exact unended_feedPieces_iff s.toList

theorem unended_of_mem_lines {s line : String} (h : line ∈ lines s) : Unended line.toList := by
  obtain ⟨piece, hpiece, rfl⟩ := List.mem_map.1 h
  rw [String.toList_ofList]
  exact unended_of_mem_linesFrom unended_nil hpiece

end Workbench.Text
