import Mathlib.Algebra.Ring.Nat
import Workbench.Proofs.Shell
import Workbench.Proofs.Text.Blank

/-!
# Blanks around a typed text

A reader passes over the gaps around the words of a typed text, but a gap is one of four blanks only.
Any other blank is part of a word, and so is a gap behind a backslash.

* `Mode.extend extra m`, `size_splitFrom_extend` : a reader who has read more before;
* `size_splitFrom_append`, `splitFrom_append_of_gaps` : blanks in front of a text;
* `Reads`, `reads_of_append` : blanks behind a text;
* `cutOff v`, `Untouched v` : what is cut off a text, and when that does not matter;
* `split_trimmed_iff` : the words of a text stay the same without the blanks around it, exactly if
  those do not matter.
-/

namespace Workbench.Shell

open Text (CodePoint CodePoints isBlank trim trimStart trimmed)

/-! ## The size of words -/

/-- The number of characters in all words. -/
def size (words : List CodePoints) : Nat := (words.map List.length).sum

@[simp] theorem size_cons (w : CodePoints) (words : List CodePoints) :
    size (w :: words) = w.length + size words := rfl

/-- The mode of a reader who has read more characters of the word before. -/
def Mode.extend (extra : CodePoints) : Mode → Mode
  | .gap => .word extra
  | .word read => .word (read ++ extra)
  | .singleQuotes read => .singleQuotes (read ++ extra)
  | .doubleQuotes read => .doubleQuotes (read ++ extra)
  | .escape read => .escape (read ++ extra)
  | .escapeInQuotes read => .escapeInQuotes (read ++ extra)

theorem enter_extend (read extra : CodePoints) (c : CodePoint) :
    enter (read ++ extra) c = (enter read c).extend extra := by
  unfold enter
  split_ifs <;> rfl

theorem map_size_map_cons (w : CodePoints) (r : Except SplitError (List CodePoints)) :
    (r.map (w :: ·)).map size = r.map fun words => w.length + size words := by
  cases r <;> rfl

theorem exists_of_map {r : Except SplitError (List CodePoints)} {f : List CodePoints → Nat}
    {n : Nat} (h : .ok n = r.map f) : ∃ words, r = .ok words ∧ n = f words := by
  cases r with
  | error e => cases h
  | ok words => exact ⟨words, rfl, Except.ok.inj h⟩

/-- What was read before is in the words as well. Induction on the text, with one case for each
mode. -/
theorem size_splitFrom_extend (extra : CodePoints) (m : Mode) (s : CodePoints) :
    (splitFrom (m.extend extra) s).map size =
      (splitFrom m s).map fun words => size words + extra.length := by
  induction s generalizing m with
  | nil =>
    cases m with
    | gap | word read =>
      refine congrArg Except.ok ?_
      simp [size, Nat.add_comm]
    | singleQuotes | doubleQuotes | escape | escapeInQuotes => rfl
  | cons c s ih =>
    cases m with
    | gap =>
      by_cases hc : isGap c = true
      · rw [Mode.extend, splitFrom_word_cons, if_pos hc, splitFrom_gap_cons, if_pos hc,
          map_size_map_cons]
        simp only [List.length_reverse, Nat.add_comm]
      · rw [Mode.extend, splitFrom_word_cons, if_neg hc, splitFrom_gap_cons, if_neg hc, ← ih,
          ← enter_extend, List.nil_append]
    | word read =>
      by_cases hc : isGap c = true
      · rw [Mode.extend, splitFrom_word_cons, if_pos hc, splitFrom_word_cons, if_pos hc,
          map_size_map_cons]
        cases splitFrom .gap s with
        | error e => rfl
        | ok words =>
          refine congrArg Except.ok ?_
          simp only [List.length_reverse, List.length_append, size_cons]
          omega
      · rw [Mode.extend, splitFrom_word_cons, if_neg hc, splitFrom_word_cons, if_neg hc, ← ih,
          ← enter_extend]
    | singleQuotes read =>
      rw [Mode.extend, splitFrom_singleQuotes_cons, splitFrom_singleQuotes_cons, ← ih]
      split_ifs <;> rfl
    | doubleQuotes read =>
      rw [Mode.extend, splitFrom_doubleQuotes_cons, splitFrom_doubleQuotes_cons, ← ih]
      split_ifs <;> rfl
    | escape read =>
      rw [Mode.extend, splitFrom_escape_cons, splitFrom_escape_cons, ← ih]
      rfl
    | escapeInQuotes read =>
      rw [Mode.extend, splitFrom_escapeInQuotes_cons, splitFrom_escapeInQuotes_cons, ← ih]
      split_ifs <;> rfl

/-! ## Blanks in front -/

/-- Is a code point a blank character? -/
def isBlankPoint (c : CodePoint) : Bool := c.char?.any isBlank

/-- A blank is no quote and no backslash. -/
theorem plain_of_isBlank {c : CodePoint} (h : isBlankPoint c = true) : c ≠ '\\' ∧ c ≠ '\'' ∧ c ≠ '"' := by
  refine ⟨?_, ?_, ?_⟩ <;>
  · rintro rfl
    exact absurd h (by decide)

theorem enter_of_isBlank {c : CodePoint} (h : isBlankPoint c = true) (read : CodePoints) :
    enter read c = .word (c :: read) := by
  obtain ⟨hslash, hsingle, hdouble⟩ := plain_of_isBlank h
  rw [enter, if_neg hslash, if_neg hsingle, if_neg hdouble]

/-- The blanks of a text that are no gaps. -/
def strays (s : CodePoints) : Nat := s.countP fun c => !isGap c

theorem strays_eq_zero_iff {s : CodePoints} : strays s = 0 ↔ ∀ c ∈ s, isGap c = true := by
  simp [strays, List.countP_eq_zero]

/-- The blanks in front of a text that are no gaps are in its words. -/
theorem size_splitFrom_append {blanks : CodePoints} (h : ∀ c ∈ blanks, isBlankPoint c = true)
    (s : CodePoints) : (splitFrom .gap (blanks ++ s)).map size =
      (splitFrom .gap s).map fun words => size words + strays blanks := by
  induction blanks with
  | nil => rfl
  | cons c blanks ih =>
    obtain ⟨hc, hblanks⟩ := List.forall_mem_cons.1 h
    rw [List.cons_append, splitFrom_gap_cons]
    by_cases hgap : isGap c = true
    · rw [if_pos hgap, ih hblanks, strays, strays, List.countP_cons_of_neg (by simp [hgap])]
    · have hword : splitFrom (enter [] c) (blanks ++ s) =
          splitFrom (Mode.gap.extend [c]) (blanks ++ s) := by rw [enter_of_isBlank hc, Mode.extend]
      have hstray : strays (c :: blanks) = strays blanks + 1 :=
        List.countP_cons_of_pos (by simp [hgap])
      rw [if_neg hgap, hword, size_splitFrom_extend, hstray]
      cases hr : splitFrom .gap (blanks ++ s) <;> cases hs : splitFrom .gap s <;>
        simp_all [Except.map]
      omega

theorem splitFrom_append_of_gaps {gaps : CodePoints} (h : ∀ c ∈ gaps, isGap c = true)
    (s : CodePoints) : splitFrom .gap (gaps ++ s) = splitFrom .gap s := by
  induction gaps with
  | nil => rfl
  | cons c gaps ih =>
    obtain ⟨hc, hgaps⟩ := List.forall_mem_cons.1 h
    rw [List.cons_append, splitFrom_gap_cons, if_pos hc, ih hgaps]

/-! ## Blanks behind -/

/-- What a reader of a text without the blanks behind it comes to, if with them there are these
words: the last one is escaped and missing now, or the words are fewer by the blanks that are no
gaps. -/
inductive Reads (blanks : CodePoints) (words : List CodePoints) :
    Except SplitError (List CodePoints) → Prop
  | escaped : Reads blanks words (.error .danglingEscape)
  | ended {fewer : List CodePoints} (hsize : size fewer + strays blanks = size words)
      (hsame : strays blanks = 0 → fewer = words) : Reads blanks words (.ok fewer)

theorem Reads.cons {blanks : CodePoints} {words : List CodePoints}
    {r : Except SplitError (List CodePoints)} (h : Reads blanks words r) (w : CodePoints) :
    Reads blanks (w :: words) (r.map (w :: ·)) := by
  cases h with
  | escaped => exact .escaped
  | ended hsize hsame =>
    refine .ended ?_ fun hnone => congrArg (w :: ·) (hsame hnone)
    rw [size_cons, size_cons, Nat.add_assoc, hsize]

/-- In quotes, blanks do not end anything. -/
theorem splitFrom_quotes_of_blanks {blanks : CodePoints} (h : ∀ c ∈ blanks, isBlankPoint c = true)
    (read : CodePoints) : splitFrom (.singleQuotes read) blanks = .error .openQuote ∧
      splitFrom (.doubleQuotes read) blanks = .error .openQuote := by
  induction blanks generalizing read with
  | nil => exact ⟨rfl, rfl⟩
  | cons c blanks ih =>
    obtain ⟨hc, hblanks⟩ := List.forall_mem_cons.1 h
    obtain ⟨hslash, hsingle, hdouble⟩ := plain_of_isBlank hc
    rw [splitFrom_singleQuotes_cons, if_neg hsingle, splitFrom_doubleQuotes_cons, if_neg hdouble,
      if_neg hslash]
    exact ih hblanks (c :: read)

/-- Blanks behind the end of a text, in a gap. -/
theorem reads_of_gap {blanks : CodePoints} (h : ∀ c ∈ blanks, isBlankPoint c = true)
    {words : List CodePoints} (hwords : splitFrom .gap blanks = .ok words) :
    Reads blanks words (.ok []) := by
  have hsize := size_splitFrom_append h []
  rw [List.append_nil, hwords] at hsize
  refine .ended (Except.ok.inj hsize).symm fun hnone => ?_
  have hgaps := splitFrom_append_of_gaps (strays_eq_zero_iff.1 hnone) []
  rw [List.append_nil, hwords] at hgaps
  exact (Except.ok.inj hgaps).symm

/-- Blanks behind the end of a text, in a word. The first gap ends it. -/
theorem reads_of_word {blanks : CodePoints} (h : ∀ c ∈ blanks, isBlankPoint c = true)
    {read : CodePoints} {words : List CodePoints}
    (hwords : splitFrom (.word read) blanks = .ok words) :
    Reads blanks words (.ok [read.reverse]) := by
  have hsize := size_splitFrom_extend read .gap blanks
  have hblanks := size_splitFrom_append h []
  rw [List.append_nil] at hblanks
  rw [Mode.extend, hwords] at hsize
  refine .ended ?_ fun hnone => ?_
  · obtain ⟨rest, hr, hwhole⟩ := exists_of_map hsize
    rw [hr] at hblanks
    have hrest : size rest = strays blanks := by
      simpa [size] using Except.ok.inj hblanks
    rw [hwhole, hrest, size_cons, List.length_reverse]
    show read.length + 0 + strays blanks = _
    omega
  · cases blanks with
    | nil => exact Except.ok.inj hwords
    | cons c blanks =>
      obtain ⟨hc, hgaps⟩ := List.forall_mem_cons.1 (strays_eq_zero_iff.1 hnone)
      have hend := splitFrom_append_of_gaps hgaps []
      rw [List.append_nil] at hend
      rw [splitFrom_word_cons, if_pos hc, hend] at hwords
      exact Except.ok.inj hwords

/-- Blanks behind a text, whatever was read before. Induction on the text: only its end matters, and
what comes before is read in the same way with and without the blanks. -/
theorem reads_of_append {blanks : CodePoints} (h : ∀ c ∈ blanks, isBlankPoint c = true) {m : Mode}
    {s : CodePoints} {words : List CodePoints} (hwords : splitFrom m (s ++ blanks) = .ok words) :
    Reads blanks words (splitFrom m s) := by
  induction s generalizing m words with
  | nil =>
    cases m with
    | gap => exact reads_of_gap h hwords
    | word read => exact reads_of_word h hwords
    | singleQuotes read =>
      rw [List.nil_append, (splitFrom_quotes_of_blanks h read).1] at hwords
      exact nomatch hwords
    | doubleQuotes read =>
      rw [List.nil_append, (splitFrom_quotes_of_blanks h read).2] at hwords
      exact nomatch hwords
    | escape read | escapeInQuotes read => exact .escaped
  | cons c s ih =>
    cases m with
    | gap =>
      rw [List.cons_append, splitFrom_gap_cons] at hwords
      rw [splitFrom_gap_cons]
      split_ifs at hwords ⊢
      · exact ih hwords
      · exact ih hwords
    | word read =>
      rw [List.cons_append, splitFrom_word_cons] at hwords
      rw [splitFrom_word_cons]
      split_ifs at hwords ⊢
      · cases hr : splitFrom .gap (s ++ blanks) with
        | error e =>
          rw [hr] at hwords
          cases hwords
        | ok rest =>
          rw [hr] at hwords
          obtain rfl := Except.ok.inj hwords
          exact (ih hr).cons read.reverse
      · exact ih hwords
    | singleQuotes | doubleQuotes | escape | escapeInQuotes => exact ih hwords

/-! ## Blanks on both sides -/

def blanksBefore (s : List Char) : List Char := s.takeWhile isBlank

def blanksBehind (s : List Char) : List Char := (trimStart s).rtakeWhile isBlank

/-- What is cut off a text. -/
def cutOff (v : String) : CodePoints :=
  (blanksBefore v.toList).map .char ++ (blanksBehind v.toList).map .char

theorem ofString_eq_append_trimmed (v : String) :
    CodePoints.ofString v = (blanksBefore v.toList).map .char ++
      (CodePoints.ofString (trimmed v) ++ (blanksBehind v.toList).map .char) := by
  have hend : trim v.toList ++ blanksBehind v.toList = trimStart v.toList := by
    rw [trim, Text.trimEnd_eq_rdropWhile, blanksBehind, List.rdropWhile_append_rtakeWhile]
  have hwhole : v.toList = blanksBefore v.toList ++ (trim v.toList ++ blanksBehind v.toList) := by
    rw [hend]
    exact (List.takeWhile_append_dropWhile).symm
  unfold CodePoints.ofString trimmed
  rw [String.toList_ofList, ← List.map_append, ← List.map_append, ← hwhole]

theorem isBlankPoint_of_mem_cutOff {v : String} : ∀ c ∈ cutOff v, isBlankPoint c = true := by
  have hchars : ∀ cs : List Char, (∀ d ∈ cs, isBlank d = true) →
      ∀ c ∈ cs.map CodePoint.char, isBlankPoint c = true :=
    fun cs h => List.forall_mem_map.2 h
  refine List.forall_mem_append.2 ⟨hchars _ fun d hd => ?_, hchars _ fun d hd => ?_⟩
  · exact List.mem_takeWhile_imp hd
  · exact List.mem_rtakeWhile_imp hd

/-- The blanks around a text do not matter to its words: they are gaps, and the first one behind the
text is not escaped. -/
def Untouched (v : String) : Prop :=
  (∀ c ∈ cutOff v, isGap c = true) ∧
    split (CodePoints.ofString (trimmed v)) ≠ .error .danglingEscape

/-- A text that can be split has the same words without the blanks around it, exactly if these do not
matter. Otherwise the words have fewer characters, or there are none because a backslash has nothing
behind it. -/
theorem split_trimmed_iff {v : String} {words : List CodePoints}
    (h : split (CodePoints.ofString v) = .ok words) :
    split (CodePoints.ofString (trimmed v)) = .ok words ↔ Untouched v := by
  obtain ⟨hbefore, hbehind⟩ := List.forall_mem_append.1 (isBlankPoint_of_mem_cutOff (v := v))
  unfold Untouched split at *
  rw [ofString_eq_append_trimmed v] at h
  -- the words of the text without the blanks in front
  have hfront := size_splitFrom_append hbefore
    (CodePoints.ofString (trimmed v) ++ (blanksBehind v.toList).map .char)
  rw [h] at hfront
  obtain ⟨rest, hrest, hsize⟩ := exists_of_map hfront
  have hreads := reads_of_append hbehind hrest
  have hgaps : (∀ c ∈ cutOff v, isGap c = true) ↔
      strays ((blanksBefore v.toList).map .char) = 0 ∧
        strays ((blanksBehind v.toList).map .char) = 0 := by
    rw [strays_eq_zero_iff, strays_eq_zero_iff, cutOff, List.forall_mem_append]
  rw [hgaps]
  cases hread : splitFrom .gap (CodePoints.ofString (trimmed v)) with
  | error e =>
    rw [hread] at hreads
    cases hreads
    simp
  | ok fewer =>
    rw [hread] at hreads
    cases hreads with
    | ended hfewer hsame =>
      constructor
      · intro heq
        obtain rfl := Except.ok.inj heq
        exact ⟨⟨by omega, by omega⟩, fun hno => nomatch hno⟩
      · rintro ⟨⟨hnone, hnone'⟩, -⟩
        rw [hsame hnone']
        have hsplit' := splitFrom_append_of_gaps (strays_eq_zero_iff.1 hnone)
          (CodePoints.ofString (trimmed v) ++ (blanksBehind v.toList).map .char)
        rw [h, hrest] at hsplit'
        exact hsplit'.symm

end Workbench.Shell
