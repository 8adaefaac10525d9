import Workbench.Proofs.Text.LineEnds
import Workbench.Proofs.View.Source
import Workbench.Session

/-!
# Which characters of a line are underlined

Columns count the characters that were read of a line, and spans count those that are shown of it.
The two differ behind a character that is not shown. A line of a document can hold two of these, the
bell and the backspace (`visible_of_mem_lines`).

* `IsShown line i`, `shownAt line i` : the character read at `i` is shown, and where;
* `existsUnique_shownAt` : each character that is shown was read at one place;
* `UnderlinedAt t j`, `Covers ds i` : a character of a text is underlined, and a column is within
  reach of a diagnostic (`underlinedAt_underlined`);
* `underlined_of_mem_lines` : a character is underlined for the columns at which it is shown, which
  are those at which it was read if nothing before it is left out.
-/

namespace Workbench.View

open Rich (visible movesCursor)

/-! ## Members that are kept -/

section Filter

variable {α : Type} {p : α → Bool} {l : List α}

theorem getElem?_filter_of_countP_take {i : Nat} {a : α} (h : l[i]? = some a) (ha : p a = true) :
    (l.filter p)[(l.take i).countP p]? = some a := by
  induction l generalizing i with
  | nil => exact nomatch h
  | cons b l ih =>
    cases i with
    | zero =>
      obtain rfl := Option.some.inj h
      rw [List.filter_cons_of_pos ha]
      rfl
    | succ i =>
      rw [List.take_succ_cons]
      by_cases hb : p b = true
      · rw [List.filter_cons_of_pos hb, List.countP_cons_of_pos hb, List.getElem?_cons_succ]
        exact ih h
      · rw [List.filter_cons_of_neg hb, List.countP_cons_of_neg hb]
        exact ih h

theorem exists_of_lt_length_filter {j : Nat} (h : j < (l.filter p).length) :
    ∃ i a, l[i]? = some a ∧ p a = true ∧ (l.take i).countP p = j := by
  induction l generalizing j with
  | nil => exact absurd h (Nat.not_lt_zero j)
  | cons b l ih =>
    by_cases hb : p b = true
    · cases j with
      | zero => exact ⟨0, b, rfl, hb, rfl⟩
      | succ j =>
        rw [List.filter_cons_of_pos hb, List.length_cons] at h
        obtain ⟨i, a, hi, ha, hj⟩ := ih (Nat.lt_of_succ_lt_succ h)
        exact ⟨i + 1, a, hi, ha, by rw [List.take_succ_cons, List.countP_cons_of_pos hb, hj]⟩
    · rw [List.filter_cons_of_neg hb] at h
      obtain ⟨i, a, hi, ha, hj⟩ := ih h
      exact ⟨i + 1, a, hi, ha, by rw [List.take_succ_cons, List.countP_cons_of_neg hb, hj]⟩

/-- Of two places, the one behind a member that is kept comes later among those kept. -/
theorem countP_take_lt {i k : Nat} {a : α} (h : l[i]? = some a) (ha : p a = true) (hk : i < k) :
    (l.take i).countP p < (l.take k).countP p := by
  have hnext : (l.take (i + 1)).countP p = (l.take i).countP p + 1 := by
    rw [List.take_add_one, h, List.countP_append, Option.toList_some, List.countP_singleton,
      if_pos ha]
  have hrest : (l.take (i + 1)).countP p ≤ (l.take k).countP p :=
    (List.take_sublist_take_left hk).countP_le
  omega

theorem countP_take_eq_iff {i : Nat} (hi : i ≤ l.length) :
    (l.take i).countP p = i ↔ ∀ a ∈ l.take i, p a = true := by
  have hlength : (l.take i).length = i := List.length_take_of_le hi
  rw [← List.countP_eq_length, hlength]

end Filter

/-! ## Places of a line -/

/-- The character read at a place of a line is shown. -/
def IsShown (line : String) (i : Nat) : Prop := ∃ c, line.toList[i]? = some c ∧ movesCursor c = false

/-- Where it is shown: behind those before it that are. -/
def shownAt (line : String) (i : Nat) : Nat := (line.toList.take i).countP (!movesCursor ·)

/-- Nothing before a place of a line is left out. -/
def AllShownBefore (line : String) (i : Nat) : Prop :=
  ∀ c ∈ line.toList.take i, movesCursor c = false

theorem getElem?_visible_shownAt {line : String} {i : Nat} {c : Char} (h : line.toList[i]? = some c)
    (hc : movesCursor c = false) : (visible line)[shownAt line i]? = some c := by
  exact getElem?_filter_of_countP_take h (by rw [hc]; rfl)

theorem shownAt_lt {line : String} {i : Nat} (h : IsShown line i) :
    shownAt line i < (visible line).length := by
  obtain ⟨c, hi, hc⟩ := h
  exact (List.getElem?_eq_some_iff.1 (getElem?_visible_shownAt hi hc)).1

/-- Each character that is shown was read at one place. -/
theorem existsUnique_shownAt {line : String} {j : Nat} (h : j < (visible line).length) :
    ∃! i, IsShown line i ∧ shownAt line i = j := by
  obtain ⟨i, c, hi, hc, hj⟩ := exists_of_lt_length_filter h
  have hkeep : ∀ {c : Char}, movesCursor c = false → (!movesCursor c) = true := fun h => by simp [h]
  have hc : movesCursor c = false := by simpa using hc
  refine ⟨i, ⟨⟨c, hi, hc⟩, hj⟩, ?_⟩
  rintro k ⟨⟨d, hk, hd⟩, hkj⟩
  -- of two places the later one is shown later
  rcases Nat.lt_trichotomy i k with hless | heq | hgreater
  · have := countP_take_lt (p := (!movesCursor ·)) hi (hkeep hc) hless
    unfold shownAt at hkj
    omega
  · exact heq.symm
  · have := countP_take_lt (p := (!movesCursor ·)) hk (hkeep hd) hgreater
    unfold shownAt at hkj
    omega

theorem shownAt_le (line : String) (i : Nat) : shownAt line i ≤ i :=
  Nat.le_trans List.countP_le_length (List.length_take_le i line.toList)

theorem shownAt_eq_iff {line : String} {i : Nat} (h : IsShown line i) :
    shownAt line i = i ↔ AllShownBefore line i := by
  obtain ⟨c, hi, -⟩ := h
  have hinside : i ≤ line.toList.length := Nat.le_of_lt (List.getElem?_eq_some_iff.1 hi).1
  rw [shownAt, countP_take_eq_iff hinside, AllShownBefore]
  simp

/-- A bell and a backspace are all that a line of a document can lose. -/
theorem visible_of_mem_lines {s line : String} (h : line ∈ Text.lines s) :
    visible line = line.toList.filter fun c => c.toNat ≠ 7 ∧ c.toNat ≠ 8 := by
  have hunended : Text.Unended line.toList := Text.unended_of_mem_lines h
  refine List.filter_congr fun c hc => ?_
  have hend := hunended c hc
  simp only [Text.isLineEnd, Bool.or_eq_false_iff, Bool.and_eq_false_iff, decide_eq_false_iff_not,
    beq_eq_false_iff_ne] at hend
  rw [Bool.eq_iff_iff, Bool.not_eq_true', decide_eq_true_iff]
  simp only [movesCursor, Bool.or_eq_false_iff, decide_eq_false_iff_not]
  omega

/-! ## Underlined characters -/

/-- A character of a text is underlined. -/
def UnderlinedAt {τ : Type} [Rich τ] (t : τ) (j : Nat) : Prop :=
  ∃ span ∈ Rich.spans t, IsUnderline span ∧ span.start ≤ j ∧ j < span.stop

/-- A column is within reach of a diagnostic. -/
def Covers (ds : List Diagnostic) (i : Nat) : Prop := ∃ d ∈ ds, d.column ≤ i ∧ i < d.endColumn

section
variable {τ : Type} [Rich τ] [LawfulRich τ]

theorem plain_underlinedView (line : String) (ds : List Diagnostic) :
    Rich.plain (underlined line ds : τ) = visible line :=
  (congrArg StyledText.plain (seen_underlined line ds)).trans (plain_underlined line ds)

theorem spans_underlinedView {line : String} {ds : List Diagnostic} (h : ∀ d ∈ ds, 0 ≤ d.column) :
    Rich.spans (underlined line ds : τ) = ds.filterMap (place? line) := by
  have hspans := congrArg StyledText.spans (seen_underlined (τ := τ) line ds)
  rw [underlined_eq h] at hspans
  exact hspans

/-- What diagnostics reach is underlined, as far as the line is shown. -/
theorem underlinedAt_underlined {line : String} {ds : List Diagnostic}
    (h : ∀ d ∈ ds, 0 ≤ d.column) (j : Nat) :
    UnderlinedAt (underlined line ds : τ) j ↔ j < (visible line).length ∧ Covers ds j := by
  have hreach : ∀ d : Diagnostic, d.endColumn = d.column + 20 := fun _ => rfl
  unfold UnderlinedAt
  rw [spans_underlinedView h]
  constructor
  · rintro ⟨span, hspan, -, hstart, hstop⟩
    obtain ⟨d, hd, hplace⟩ := List.mem_filterMap.1 hspan
    unfold place? at hplace
    split at hplace
    · obtain rfl := Option.some.inj hplace
      have hstop : (j : Int) < min (d.column + 20) (visible line).length := hstop
      exact ⟨by omega, d, hd, hstart, by rw [hreach]; omega⟩
    · exact nomatch hplace
  · rintro ⟨hinside, d, hd, hstart, hstop⟩
    have hplace : place? line d = some _ := if_pos (by omega)
    refine ⟨_, List.mem_filterMap.2 ⟨d, hd, hplace⟩, isUnderline_of_place? hplace, hstart, ?_⟩
    show (j : Int) < min (d.column + 20) (visible line).length
    rw [hreach] at hstop
    omega

/-- The columns of a character are those at which it is shown only if nothing before it is left
out: a diagnostic at the column at which it was read would reach it. -/
theorem allShownBefore_of_covers_iff {line : String} {i : Nat} (h : IsShown line i)
    (hcovers : ∀ ds : List Diagnostic, (∀ d ∈ ds, 0 ≤ d.column) →
      (UnderlinedAt (underlined line ds : τ) (shownAt line i) ↔ Covers ds i)) :
    AllShownBefore line i := by
  have hcolumn : ∀ d ∈ [(⟨0, i, .error, ""⟩ : Diagnostic)], 0 ≤ d.column := by
    intro d hd
    rw [List.eq_of_mem_singleton hd]
    exact Int.natCast_nonneg i
  have hreached : Covers [⟨0, i, .error, ""⟩] i :=
    ⟨_, List.mem_singleton_self _, Int.le_refl _, Int.lt_add_of_pos_right _ (by decide)⟩
  have hunderlined := (hcovers _ hcolumn).2 hreached
  obtain ⟨-, d, hd, hstart, -⟩ := (underlinedAt_underlined hcolumn _).1 hunderlined
  obtain rfl := List.eq_of_mem_singleton hd
  exact (shownAt_eq_iff h).1 (Nat.le_antisymm (shownAt_le line i) (Int.ofNat_le.1 hstart))

end

/-- What is shown of a line of a document are its characters but bells and backspaces, each at one
place, and all underlines stay in it. A character is underlined exactly if the place at which it is
shown is within reach of a diagnostic. For the column at which it was read the same holds, whatever
the diagnostics are, exactly if nothing before it is left out. -/
theorem underlined_of_mem_lines (τ : Type) [Rich τ] [LawfulRich τ] (s : Session)
    (code line : String) (hline : line ∈ (s.load code).lines) :
    let view (ds : List Diagnostic) : τ := underlined line ds
    (∀ ds, Rich.plain (view ds) = line.toList.filter fun c => c.toNat ≠ 7 ∧ c.toNat ≠ 8) ∧
    (∀ ds i c, line.toList[i]? = some c → movesCursor c = false →
      (Rich.plain (view ds))[shownAt line i]? = some c) ∧
    (∀ ds, ∀ j < (Rich.plain (view ds)).length, ∃! i, IsShown line i ∧ shownAt line i = j) ∧
    (∀ ds, (∀ d ∈ ds, 0 ≤ d.column) → ∀ span ∈ Rich.spans (view ds),
      span.Within (Rich.plain (view ds)).length ∧ IsUnderline span) ∧
    (∀ ds, (∀ d ∈ ds, 0 ≤ d.column) → ∀ i, IsShown line i →
      (UnderlinedAt (view ds) (shownAt line i) ↔ Covers ds (shownAt line i))) ∧
    ∀ i, IsShown line i →
      ((∀ ds, (∀ d ∈ ds, 0 ≤ d.column) →
        (UnderlinedAt (view ds) (shownAt line i) ↔ Covers ds i)) ↔
      AllShownBefore line i) := by
  intro view
  have hplain : ∀ ds, Rich.plain (view ds) = visible line := plain_underlinedView line
  have hreached : ∀ ds, (∀ d ∈ ds, 0 ≤ d.column) → ∀ i, IsShown line i →
      (UnderlinedAt (view ds) (shownAt line i) ↔ Covers ds (shownAt line i)) := by
    intro ds hds i hi
    rw [underlinedAt_underlined hds, and_iff_right (shownAt_lt hi)]
  refine ⟨?_, ?_, ?_, ?_, hreached, ?_⟩
  · intro ds
    rw [hplain]
    exact visible_of_mem_lines hline
  · intro ds i c hi hc
    rw [hplain]
    exact getElem?_visible_shownAt hi hc
  · intro ds j hj
    rw [hplain] at hj
    exact existsUnique_shownAt hj
  · intro ds hds span hspan
    rw [spans_underlinedView hds] at hspan
    obtain ⟨d, hd, hplace⟩ := List.mem_filterMap.1 hspan
    rw [hplain]
    exact ⟨(place?_eq_some hplace (hds d hd)).1, isUnderline_of_place? hplace⟩
  · intro i hi
    refine ⟨allShownBefore_of_covers_iff hi, fun hbefore ds hds => ?_⟩
    have hsame : shownAt line i = i := (shownAt_eq_iff hi).2 hbefore
    have h := hreached ds hds i hi
    rwa [hsame] at h ⊢

/-- A line with a bell behind its first character. A diagnostic at its second column underlines the
third character, which is the second one shown. -/
theorem underlined_behind_bell :
    let view : StyledText := underlined "a\x07b" [⟨0, 1, .error, "x"⟩]
    "a\x07b" ∈ (({} : Session).load "a\x07b\n").lines ∧
    view.plain = ['a', 'b'] ∧ UnderlinedAt view 1 := by
  intro view
  have hline : "a\x07b" ∈ (({} : Session).load "a\x07b\n").lines := by decide
  obtain ⟨hplain, -, -, -, hreached, -⟩ :=
    underlined_of_mem_lines StyledText {} "a\x07b\n" "a\x07b" hline
  have hshown : IsShown "a\x07b" 2 := ⟨'b', by decide, by decide⟩
  have hcovers : Covers [⟨0, 1, .error, "x"⟩] (shownAt "a\x07b" 2) :=
    ⟨_, List.mem_singleton_self _, by decide, by decide⟩
  exact ⟨hline, (hplain _).trans (by decide), (hreached _ (by decide) 2 hshown).2 hcovers⟩

/-- The third character of that line, which a diagnostic at the third column is about, is shown but
not underlined. -/
theorem notUnderlined_behind_bell :
    let view : StyledText := underlined "a\x07b" [⟨0, 2, .error, "x"⟩]
    "a\x07b" ∈ (({} : Session).load "a\x07b\n").lines ∧
    (∀ d ∈ [(⟨0, 2, .error, "x"⟩ : Diagnostic)], 0 ≤ d.column) ∧
    "a\x07b".toList[2]? = some 'b' ∧ view.plain = ['a', 'b'] ∧
    Covers [⟨0, 2, .error, "x"⟩] 2 ∧ ∀ j, ¬ UnderlinedAt view j := by
  intro view
  have hspans : view.spans = [] := by decide
  refine ⟨by decide, by decide, by decide, by decide,
    ⟨_, List.mem_singleton_self _, by decide, by decide⟩, ?_⟩
  rintro j ⟨span, hspan, -⟩
  have hspan : span ∈ view.spans := hspan
  rw [hspans] at hspan
  exact absurd hspan List.not_mem_nil

end Workbench.View
