import Workbench.Proofs.Text.Passed
import Workbench.Shell

/-!
# Typed commands are read back

A word is typed with or without quotes, and a reader that goes through what was typed comes to the
mode in which it has read the word and nothing else.

* `splitFrom_safe`, `splitFrom_singleQuotes` : a reader that goes through safe characters, and
  through a passage in single quotes;
* `splitFrom_quote` : a reader that goes through one typed word;
* `split_join` : the words of a typed command are the words that were typed;
* `ofString_line` : which commands are shown as they are typed.
-/

namespace Workbench.Shell

open Text (CodePoint CodePoints joinWith)

/-! ## One word -/

/-- No shell reads a safe character as anything but itself. -/
theorem isSafe_ne {c d : CodePoint} (h : isSafe c = true) (hd : isSafe d = false) : c ≠ d := by
  rintro rfl
  rw [h] at hd
  exact Bool.noConfusion hd

theorem isGap_of_isSafe {c : CodePoint} (h : isSafe c = true) : isGap c = false := by
  have hspace : c ≠ ' ' := isSafe_ne h (by decide)
  have htab : c ≠ '\t' := isSafe_ne h (by decide)
  have hreturn : c ≠ '\r' := isSafe_ne h (by decide)
  have hfeed : c ≠ '\n' := isSafe_ne h (by decide)
  simp [isGap, hspace, htab, hreturn, hfeed]

theorem enter_of_isSafe (read : CodePoints) {c : CodePoint} (h : isSafe c = true) :
    enter read c = .word (c :: read) := by
  have hslash : c ≠ '\\' := isSafe_ne h (by decide)
  have hsingle : c ≠ '\'' := isSafe_ne h (by decide)
  have hdouble : c ≠ '"' := isSafe_ne h (by decide)
  simp [enter, hslash, hsingle, hdouble]

section
variable (read : CodePoints) (c : CodePoint) (s : CodePoints)

theorem splitFrom_gap_cons : splitFrom .gap (c :: s) =
    if isGap c then splitFrom .gap s else splitFrom (enter [] c) s := rfl

theorem splitFrom_word_cons : splitFrom (.word read) (c :: s) =
    if isGap c then (splitFrom .gap s).map (read.reverse :: ·) else splitFrom (enter read c) s := rfl

theorem splitFrom_singleQuotes_cons : splitFrom (.singleQuotes read) (c :: s) =
    splitFrom (if c = '\'' then .word read else .singleQuotes (c :: read)) s := rfl

theorem splitFrom_doubleQuotes_cons : splitFrom (.doubleQuotes read) (c :: s) =
    splitFrom (if c = '"' then .word read
      else if c = '\\' then .escapeInQuotes read
      else .doubleQuotes (c :: read)) s := rfl

theorem splitFrom_escape_cons : splitFrom (.escape read) (c :: s) =
    splitFrom (.word (c :: read)) s := rfl

theorem splitFrom_escapeInQuotes_cons : splitFrom (.escapeInQuotes read) (c :: s) =
    splitFrom (.doubleQuotes
      (if c = '"' ∨ c = '\\' then c :: read else c :: '\\' :: read)) s := rfl

end

/-- Safe characters are read as they stand. -/
theorem splitFrom_safe {w : CodePoints} (h : w.all isSafe = true) (read s : CodePoints) :
    splitFrom (.word read) (w ++ s) = splitFrom (.word (w.reverse ++ read)) s := by
  induction w generalizing read with
  | nil => rfl
  | cons c w ih =>
    obtain ⟨hc, hw⟩ := Bool.and_eq_true_iff.1 (List.all_cons ▸ h)
    have hgap : ¬ isGap c = true := by simp [isGap_of_isSafe hc]
    rw [List.cons_append, splitFrom_word_cons, if_neg hgap, enter_of_isSafe read hc, ih hw]
    simp

/-- A passage in single quotes is read up to its closing quote. A single quote in it leaves the
passage, stands between double quotes and opens the next passage. -/
theorem splitFrom_singleQuotes (w read s : CodePoints) :
    splitFrom (.singleQuotes read) (w.flatMap quoteChar ++ CodePoint.char '\'' :: s) =
      splitFrom (.word (w.reverse ++ read)) s := by
  induction w generalizing read with
  | nil => rfl
  | cons c w ih =>
    have hstep : splitFrom (.singleQuotes read)
        (quoteChar c ++ (w.flatMap quoteChar ++ CodePoint.char '\'' :: s)) =
        splitFrom (.singleQuotes (c :: read)) (w.flatMap quoteChar ++ CodePoint.char '\'' :: s) := by
      by_cases hc : c = '\''
      · subst hc
        simp [quoteChar, splitFrom_singleQuotes_cons, splitFrom_doubleQuotes_cons,
          splitFrom_word_cons, isGap, enter]
      · simp [quoteChar, splitFrom_singleQuotes_cons, hc]
    rw [List.flatMap_cons, List.append_assoc, hstep, ih]
    simp

/-- After one typed word, a reader has read that word. -/
theorem splitFrom_quote (w s : CodePoints) :
    splitFrom .gap (quote w ++ s) = splitFrom (.word w.reverse) s := by
  unfold quote
  split
  · next h =>
    obtain ⟨hne, hsafe⟩ := h
    cases w with
    | nil => exact absurd rfl hne
    | cons c w =>
      obtain ⟨hc, hw⟩ := Bool.and_eq_true_iff.1 (List.all_cons ▸ hsafe)
      have hgap : ¬ isGap c = true := by simp [isGap_of_isSafe hc]
      rw [List.cons_append, splitFrom_gap_cons, if_neg hgap, enter_of_isSafe [] hc,
        splitFrom_safe hw]
      simp
  · have hopen : splitFrom .gap (.char '\'' :: (w.flatMap quoteChar ++ CodePoint.char '\'' :: s)) =
        splitFrom (.singleQuotes []) (w.flatMap quoteChar ++ CodePoint.char '\'' :: s) := by
      simp [splitFrom_gap_cons, isGap, enter]
    have hquoted : .char '\'' :: w.flatMap quoteChar ++ [.char '\''] ++ s =
        .char '\'' :: (w.flatMap quoteChar ++ CodePoint.char '\'' :: s) := by simp
    rw [hquoted, hopen, splitFrom_singleQuotes, List.append_nil]

/-! ## Commands -/

theorem split_join (words : List CodePoints) : split (join words) = .ok words := by
  induction words with
  | nil => rfl
  | cons w words ih =>
    cases words with
    | nil =>
      have h := splitFrom_quote w []
      rw [List.append_nil] at h
      show splitFrom .gap (quote w) = _
      rw [h]
      exact congrArg (fun word => Except.ok [word]) (List.reverse_reverse w)
    | cons next rest =>
      have hjoin : join (w :: next :: rest) = quote w ++ .char ' ' :: join (next :: rest) := rfl
      -- the space ends the first word, and the other words are read from a gap again
      have hgap : splitFrom (.word w.reverse) (.char ' ' :: join (next :: rest)) =
          (split (join (next :: rest))).map (w.reverse.reverse :: ·) := by
        rw [splitFrom_word_cons, if_pos (by decide)]
        rfl
      rw [split, hjoin, splitFrom_quote, hgap, ih, List.reverse_reverse]
      rfl

theorem isHalf_of_mem_quote {w : CodePoints} (h : ∀ c ∈ w, c.isHalf = false) :
    ∀ c ∈ quote w, c.isHalf = false := by
  have hquote : ∀ c : CodePoint, c.isHalf = false → ∀ d ∈ quoteChar c, d.isHalf = false := by
    intro c hc
    unfold quoteChar
    split
    · decide
    · exact List.forall_mem_singleton.2 hc
  unfold quote
  split
  · exact h
  · refine List.forall_mem_append.2 ⟨List.forall_mem_cons.2 ⟨rfl, ?_⟩, by decide⟩
    intro d hd
    obtain ⟨c, hc, hdc⟩ := List.mem_flatMap.1 hd
    exact hquote c (h c hc) d hdc

/-- A command whose words are texts is shown as it is typed. -/
theorem ofString_line {words : List CodePoints} (h : ∀ w ∈ words, ∀ c ∈ w, c.isHalf = false) :
    CodePoints.ofString (line words) = join words := by
  refine CodePoints.ofString_shown ?_
  induction words with
  | nil => exact fun c hc => absurd hc List.not_mem_nil
  | cons w words ih =>
    obtain ⟨hw, hwords⟩ := List.forall_mem_cons.1 h
    cases words with
    | nil => exact isHalf_of_mem_quote hw
    | cons next rest =>
      refine List.forall_mem_append.2 ⟨isHalf_of_mem_quote hw, ?_⟩
      exact List.forall_mem_cons.2 ⟨rfl, ih hwords⟩

end Workbench.Shell
