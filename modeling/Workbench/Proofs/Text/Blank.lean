import Mathlib.Data.List.DropRight
import Workbench.Text.Blank
import Workbench.Text.Digit

/-!
# Blanks, digits and runs of them

* `Stops p s` : the text `s` does not begin with a character of the class `p`, so a run of such
  characters that stands before `s` ends there (`takeWhile_append_of_stops`);
* `isDigit_eq_false_of_isBlank` : no character is both a blank and a digit;
* `trim_eq_nil_iff` : only a text of blanks has nothing but blanks to be cut off;
* `trim_append_of_blanks` : blanks behind a text are cut off with its own;
* `stops_trim`, `stops_reverse_trim` : no blanks are left at the two ends.
-/

namespace Workbench.Text

/-! ## Runs of a class -/

section Runs
variable {p : Char → Bool}

/-- The text does not begin with a character of the class. -/
def Stops (p : Char → Bool) (s : List Char) : Prop := ∀ c ∈ s.head?, p c = false

@[simp] theorem stops_nil : Stops p [] := by simp [Stops]

@[simp] theorem stops_cons {c : Char} {s : List Char} : Stops p (c :: s) ↔ p c = false := by
  simp [Stops]

theorem stops_dropWhile (p : Char → Bool) (s : List Char) : Stops p (s.dropWhile p) := by
  intro c hc
  have h := List.head?_dropWhile_not p s
  rw [Option.mem_def.1 hc] at h
  simpa using h

theorem takeWhile_append_of_stops {x s : List Char} (hx : ∀ c ∈ x, p c = true) (hs : Stops p s) :
    (x ++ s).takeWhile p = x := by
  rw [List.takeWhile_append_of_pos hx]
  cases s with
  | nil => simp
  | cons c t =>
    rw [List.takeWhile_cons_of_neg (by simpa using hs), List.append_nil]

theorem dropWhile_append_of_stops {x s : List Char} (hx : ∀ c ∈ x, p c = true) (hs : Stops p s) :
    (x ++ s).dropWhile p = s := by
  rw [List.dropWhile_append_of_pos hx]
  cases s with
  | nil => rfl
  | cons c t => exact List.dropWhile_cons_of_neg (by simpa using hs)

theorem eq_false_of_all {s : List Char} (h : (s.all fun c => !p c) = true) :
    ∀ c ∈ s, p c = false := by
  intro c hc
  simpa using List.all_eq_true.1 h c hc

end Runs

/-! ## Blanks and digits -/

/-- The numbers of the blanks. -/
def blankPoints : List Nat :=
  [9, 10, 11, 12, 13, 28, 29, 30, 31, 32, 0x85, 0xA0, 0x1680, 0x2000, 0x2001, 0x2002, 0x2003, 0x2004,
    0x2005, 0x2006, 0x2007, 0x2008, 0x2009, 0x200A, 0x2028, 0x2029, 0x202F, 0x205F, 0x3000]

theorem mem_blankPoints {c : Char} (h : isBlank c = true) : c.toNat ∈ blankPoints := by
  simp only [isBlank, Bool.or_eq_true, Bool.and_eq_true, decide_eq_true_eq, beq_iff_eq] at h
  simp only [blankPoints, List.mem_cons, List.not_mem_nil, or_false]
  omega

theorem isDigit_eq_false_of_isBlank {c : Char} (h : isBlank c = true) : isDigit c = false := by
  have hc := mem_blankPoints h
  unfold isDigit digit?
  generalize c.toNat = n at hc
  revert n
  decide

theorem isBlank_eq_false_of_isDigit {c : Char} (h : isDigit c = true) : isBlank c = false := by
  by_contra hb
  rw [Bool.not_eq_false] at hb
  rw [isDigit_eq_false_of_isBlank hb] at h
  exact Bool.noConfusion h

/-- A blank has no lower case. -/
theorem toLower_of_isBlank {c : Char} (h : isBlank c = true) : c.toLower = c := by
  have hc : ∀ n ∈ blankPoints, ¬ (65 ≤ n ∧ n ≤ 90) := by decide
  have hn := hc _ (mem_blankPoints h)
  unfold Char.toLower
  rw [dif_neg]
  intro hr
  exact hn ⟨UInt32.le_iff_toNat_le.1 hr.1, UInt32.le_iff_toNat_le.1 hr.2⟩

/-- A digit has no lower case. -/
theorem toLower_of_isDigit {c : Char} (h : isDigit c = true) : c.toLower = c := by
  unfold Char.toLower
  rw [dif_neg]
  rintro ⟨hlo, hhi⟩
  have hlo' : 65 ≤ c.toNat := UInt32.le_iff_toNat_le.1 hlo
  have hhi' : c.toNat ≤ 90 := UInt32.le_iff_toNat_le.1 hhi
  unfold isDigit digit? at h
  rw [if_pos (by omega), if_neg (by omega)] at h
  exact Bool.noConfusion h

/-! ## Cutting off blanks -/

theorem trimEnd_eq_rdropWhile (s : List Char) : trimEnd s = s.rdropWhile isBlank := rfl

theorem trim_eq_nil_iff {s : List Char} : trim s = [] ↔ ∀ c ∈ s, isBlank c = true := by
  unfold trim
  rw [trimEnd_eq_rdropWhile, List.rdropWhile_eq_nil_iff]
  constructor
  · intro h
    -- what is left at the front would begin with a character that is no blank
    have hs := stops_dropWhile isBlank s
    unfold trimStart at h
    cases hd : s.dropWhile isBlank with
    | nil => exact List.dropWhile_eq_nil_iff.1 hd
    | cons c t =>
      rw [hd, stops_cons, h c (by rw [hd]; exact List.mem_cons_self)] at hs
      exact Bool.noConfusion hs
  · intro h c hc
    exact h c ((List.dropWhile_suffix isBlank).mem hc)

/-- Blanks before a text do not matter to what is left when both ends are cut. -/
theorem trim_trimStart (s : List Char) : trim (trimStart s) = trim s := by
  unfold trim trimStart
  rw [List.dropWhile_idempotent]

theorem trimEnd_append_of_blanks {w : List Char} (hw : ∀ c ∈ w, isBlank c = true) (s : List Char) :
    trimEnd (s ++ w) = trimEnd s := by
  unfold trimEnd
  rw [List.reverse_append, List.dropWhile_append_of_pos fun c hc => hw c (List.mem_reverse.1 hc)]

/-- Blanks behind a text do not matter either. -/
theorem trim_append_of_blanks {w : List Char} (hw : ∀ c ∈ w, isBlank c = true) (s : List Char) :
    trim (s ++ w) = trim s := by
  by_cases hs : ∀ c ∈ s, isBlank c = true
  · have hall : ∀ c ∈ s ++ w, isBlank c = true := by
      intro c hc
      exact (List.mem_append.1 hc).elim (hs c) (hw c)
    rw [trim_eq_nil_iff.2 hs, trim_eq_nil_iff.2 hall]
  · have hne : (s.dropWhile isBlank).isEmpty = false := by
      rw [List.isEmpty_eq_false_iff, ne_eq, List.dropWhile_eq_nil_iff]
      exact hs
    have hstart : trimStart (s ++ w) = trimStart s ++ w := by
      unfold trimStart
      rw [List.dropWhile_append, hne]
      rfl
    unfold trim
    rw [hstart, trimEnd_append_of_blanks hw]

theorem trimEnd_isPrefix (s : List Char) : trimEnd s <+: s := by
  rw [trimEnd_eq_rdropWhile]
  exact List.rdropWhile_prefix isBlank s

theorem trim_isInfix (s : List Char) : trim s <:+: s :=
  (trimEnd_isPrefix (trimStart s)).isInfix.trans (List.dropWhile_suffix isBlank).isInfix

/-- No blank is left at the beginning. -/
theorem stops_trim (s : List Char) : Stops isBlank (trim s) := by
  intro c hc
  obtain ⟨after, ht⟩ := trimEnd_isPrefix (trimStart s)
  refine stops_dropWhile isBlank s c ?_
  rw [← trimStart, ← ht]
  exact List.mem_head?_append_of_mem_head? hc

/-- No blank is left at the end. -/
theorem stops_reverse_trim (s : List Char) : Stops isBlank (trim s).reverse := by
  unfold trim trimEnd
  rw [List.reverse_reverse]
  exact stops_dropWhile isBlank _

end Workbench.Text
