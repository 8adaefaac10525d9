import Workbench.Proofs.Diagnostic.Reader

/-!
# Shapes are read without trying again

A pattern may be had in many ways, and the ways are tried one after another. For the shapes of
messages nothing has to be tried twice: a run of blanks or digits is followed by something that
does not begin with a blank or a digit, so only the longest run can go on.

* `Pattern.andThen p k r` : what `k` makes of the ways to have `p` after the reading `r`;
* `Rejects accepts k` : `k` makes nothing of a text that begins with a character of the class;
* `andThen_star` : a run in front of what rejects its class is taken at its longest;
* `find_eq_search` : a shape finds in a line what the search for its pattern finds.
-/

namespace Workbench.Diagnostic
open Text (isBlank isDigit Stops)

variable {α : Type}

theorem findSome?_flatMap {β γ : Type} (l : List β) (f : β → List γ) (g : γ → Option α) :
    (l.flatMap f).findSome? g = l.findSome? fun b => (f b).findSome? g := by
  induction l with
  | nil => rfl
  | cons b l ih =>
    rw [List.flatMap_cons, List.findSome?_append, ih, List.findSome?_cons]
    cases (f b).findSome? g <;> rfl

/-! ## Going on after a pattern -/

namespace Pattern
variable {p q : Pattern} {accepts : Char → Bool} {s : List Char}

theorem readings_nothing : nothing.readings s = [{ rest := s }] := rfl

theorem readings_char_nil : (char accepts).readings [] = [] := rfl

theorem readings_char_cons {c : Char} :
    (char accepts).readings (c :: s) = if accepts c then [{ rest := s }] else [] := rfl

theorem readings_star :
    (star accepts).readings s = (leftovers accepts s).map fun rest => { rest } := rfl

theorem readings_both : (both p q).readings s = (p.readings s).flatMap fun r =>
    (q.readings r.rest).map fun t => { parts := r.parts ++ t.parts, rest := t.rest } := rfl

theorem readings_either : (either p q).readings s = p.readings s ++ q.readings s := rfl

theorem readings_option : (option p).readings s = p.readings s ++ [{ rest := s }] := rfl

theorem readings_part {name : Part} : (part name p).readings s = (p.readings s).map fun r =>
    { parts := r.parts ++ [(name, s.take (s.length - r.rest.length))], rest := r.rest } := rfl

end Pattern

/-- What `k` makes of the first way to have the pattern after a reading of which it makes anything. -/
def Pattern.andThen (p : Pattern) (k : Reading → Option α) (r : Reading) : Option α :=
  (p.readings r.rest).findSome? fun t => k { parts := r.parts ++ t.parts, rest := t.rest }

namespace Pattern
variable {p q : Pattern} {ps : List Pattern} {k : Reading → Option α} {accepts : Char → Bool}

@[simp] theorem andThen_nothing : nothing.andThen k = k := by
  funext r
  simp [andThen, readings_nothing]

theorem andThen_char_cons {r : Reading} {c : Char} {s : List Char} (h : r.rest = c :: s) :
    (char accepts).andThen k r = if accepts c then k { parts := r.parts, rest := s } else none := by
  unfold andThen
  rw [h, readings_char_cons]
  split <;> simp

theorem andThen_char_nil {r : Reading} (h : r.rest = []) : (char accepts).andThen k r = none := by
  unfold andThen
  rw [h, readings_char_nil]
  rfl

@[simp] theorem andThen_both : (both p q).andThen k = p.andThen (q.andThen k) := by
  funext r
  simp only [andThen, readings_both, findSome?_flatMap, List.findSome?_map, Function.comp_def,
    List.append_assoc]

theorem andThen_either (r : Reading) :
    (either p q).andThen k r = (p.andThen k r).or (q.andThen k r) := by
  simp only [andThen, readings_either, List.findSome?_append]

theorem andThen_option (r : Reading) : (option p).andThen k r = (p.andThen k r).or (k r) := by
  simp [andThen, readings_option, List.findSome?_append]

theorem andThen_part (name : Part) (r : Reading) :
    (part name p).andThen k r = p.andThen (fun t =>
      k { parts := t.parts ++ [(name, r.rest.take (r.rest.length - t.rest.length))],
          rest := t.rest }) r := by
  simp only [andThen, readings_part, List.findSome?_map, Function.comp_def, List.append_assoc]

@[simp] theorem andThen_row_nil : (row []).andThen k = k := andThen_nothing

@[simp] theorem andThen_row_cons : (row (p :: ps)).andThen k = p.andThen ((row ps).andThen k) :=
  andThen_both

end Pattern

/-! ## What a run is followed by -/

/-- What comes next makes nothing of a text that begins with a character of the class. -/
def Rejects (accepts : Char → Bool) (k : Reading → Option α) : Prop :=
  ∀ r c s, r.rest = c :: s → accepts c = true → k r = none

section Rejects
open Pattern
variable {p q : Pattern} {k : Reading → Option α} {accepts accepts' : Char → Bool}

theorem rejects_char (h : ∀ c, accepts c = true → accepts' c = false) :
    Rejects accepts ((char accepts').andThen k) := by
  intro r c s hr hc
  rw [andThen_char_cons hr, h c hc]
  rfl

theorem rejects_only {x : Char} (h : accepts x = false) :
    Rejects accepts ((only x).andThen k) := by
  refine rejects_char fun c hc => decide_eq_false ?_
  rintro rfl
  rw [h] at hc
  exact Bool.noConfusion hc

theorem rejects_part {name : Part} (h : ∀ k : Reading → Option α, Rejects accepts (p.andThen k)) :
    Rejects accepts ((part name p).andThen k) := by
  intro r c s hr hc
  rw [andThen_part]
  exact h _ r c s hr hc

theorem rejects_option (hp : Rejects accepts (p.andThen k)) (hk : Rejects accepts k) :
    Rejects accepts ((option p).andThen k) := by
  intro r c s hr hc
  rw [andThen_option, hp r c s hr hc, hk r c s hr hc]
  rfl

theorem rejects_either (hp : Rejects accepts (p.andThen k)) (hq : Rejects accepts (q.andThen k)) :
    Rejects accepts ((either p q).andThen k) := by
  intro r c s hr hc
  rw [andThen_either, hp r c s hr hc, hq r c s hr hc]
  rfl

theorem rejects_number {name : Part} (h : ∀ c, accepts c = true → isDigit c = false) :
    Rejects accepts ((number name).andThen k) := by
  refine rejects_part fun k => ?_
  rw [plus, andThen_both]
  exact rejects_char h

/-- No letter of a word is a blank. -/
theorem rejects_word {w : String} {a : Char} {u : List Char} (hw : w.toList = a :: u)
    (ha : isBlank a = false) :
    Rejects isBlank ((word w).andThen k) := by
  unfold word
  rw [hw, List.map_cons, andThen_row_cons]
  exact rejects_char fun c hc => isLetter_eq_false_of_isBlank ha hc

end Rejects

/-! ## Runs -/

section Runs
open Pattern
variable {k : Reading → Option α} {accepts : Char → Bool}

/-- A shorter run leaves a character of its class, and nothing is made of that. -/
theorem findSome?_leftovers {g : List Char → Option α}
    (h : ∀ c s, accepts c = true → g (c :: s) = none) (s : List Char) :
    (leftovers accepts s).findSome? g = g (s.dropWhile accepts) := by
  induction s with
  | nil => simp [leftovers]
  | cons c s ih =>
    rw [leftovers]
    split
    · next hc =>
      rw [List.findSome?_append, ih, List.dropWhile_cons_of_pos hc]
      simp [h c s hc]
    · next hc => rw [List.dropWhile_cons_of_neg hc, List.findSome?_singleton]

theorem andThen_star_eq (r : Reading) :
    (star accepts).andThen k r =
      (leftovers accepts r.rest).findSome? fun s => k { parts := r.parts, rest := s } := by
  simp only [andThen, readings_star, List.findSome?_map, Function.comp_def, List.append_nil]

theorem andThen_star (h : Rejects accepts k) (r : Reading) :
    (star accepts).andThen k r = k { parts := r.parts, rest := r.rest.dropWhile accepts } := by
  rw [andThen_star_eq]
  exact findSome?_leftovers (fun c s hc => h _ c s rfl hc) r.rest

theorem andThen_plus (h : Rejects accepts k) (r : Reading) :
    (plus accepts).andThen k r = if r.rest.takeWhile accepts = [] then none
      else k { parts := r.parts, rest := r.rest.dropWhile accepts } := by
  rw [plus, andThen_both]
  cases hr : r.rest with
  | nil => rw [andThen_char_nil hr, List.takeWhile_nil, if_pos rfl]
  | cons c s =>
    rw [andThen_char_cons hr]
    by_cases hc : accepts c = true
    · rw [if_pos hc, List.takeWhile_cons_of_pos hc, if_neg (List.cons_ne_nil _ _), andThen_star h,
        List.dropWhile_cons_of_pos hc]
    · rw [if_neg hc, List.takeWhile_cons_of_neg hc, if_pos rfl]

end Runs

/-! ## The readers of the parts -/

section Readers
open Pattern
variable {k : Reading → Option α}

theorem andThen_only (x : Char) (r : Reading) :
    (only x).andThen k r = (afterChar x r.rest).bind fun s => k { parts := r.parts, rest := s } := by
  unfold only
  cases hr : r.rest with
  | nil => rw [andThen_char_nil hr]; rfl
  | cons c s =>
    rw [andThen_char_cons hr]
    by_cases hc : c = x <;> simp [afterChar, hc]

theorem andThen_letters (letters : List Char) (r : Reading) :
    (row (letters.map fun letter => char (isLetter letter))).andThen k r =
      (afterWord letters r.rest).bind fun s => k { parts := r.parts, rest := s } := by
  induction letters generalizing r with
  | nil => simp [afterWord]
  | cons letter letters ih =>
    rw [List.map_cons, andThen_row_cons]
    cases hr : r.rest with
    | nil => rw [andThen_char_nil hr]; rfl
    | cons c s =>
      rw [andThen_char_cons hr, afterWord]
      split
      · exact ih _
      · rfl

theorem andThen_word (w : String) (r : Reading) :
    (word w).andThen k r =
      (afterWord w.toList r.rest).bind fun s => k { parts := r.parts, rest := s } :=
  andThen_letters w.toList r

theorem andThen_blanks (h : Rejects isBlank k) (r : Reading) :
    (star isBlank).andThen k r = k { parts := r.parts, rest := afterBlanks r.rest } :=
  andThen_star h r

theorem andThen_gap (h : Rejects isBlank k) (r : Reading) :
    (plus isBlank).andThen k r =
      (afterGap r.rest).bind fun s => k { parts := r.parts, rest := s } := by
  rw [andThen_plus h]
  cases hr : r.rest with
  | nil => rfl
  | cons c s =>
    rw [afterGap]
    by_cases hc : isBlank c = true
    · rw [List.takeWhile_cons_of_pos hc, if_neg (List.cons_ne_nil _ _), if_pos hc,
        List.dropWhile_cons_of_pos hc]
      rfl
    · rw [List.takeWhile_cons_of_neg hc, if_pos rfl, if_neg hc]
      rfl

/-- The part of a text before the rest of it. -/
theorem take_sub_length {x s t : List Char} (h : s = x ++ t) :
    s.take (s.length - t.length) = x := by
  rw [h, List.length_append, Nat.add_sub_cancel, List.take_left]

theorem andThen_number (name : Part) (h : Rejects isDigit k) (r : Reading) :
    (number name).andThen k r = (digits? r.rest).bind fun (ds, s) =>
      k { parts := r.parts ++ [(name, ds)], rest := s } := by
  rw [number, andThen_part, andThen_plus, digits?_eq]
  · by_cases hnil : r.rest.takeWhile isDigit = []
    · rw [if_pos hnil, if_pos hnil]
      rfl
    · rw [if_neg hnil, if_neg hnil, take_sub_length List.takeWhile_append_dropWhile.symm]
      rfl
  · intro t c s ht hc
    exact h _ c s ht hc

/-- The two words for a severity are tried one after the other; where one of them is, the other one
is not. -/
theorem andThen_severity (r : Reading) :
    (part .severity (either (word "error") (word "warning"))).andThen k r =
      (severity? r.rest).bind fun (_, s) =>
        k { parts := r.parts ++ [(.severity, r.rest.take (r.rest.length - s.length))], rest := s } := by
  rw [andThen_part, andThen_either, andThen_word, andThen_word]
  dsimp only
  cases hs : severity? r.rest with
  | some found =>
    obtain ⟨severity, t⟩ := found
    obtain ⟨w, hw, hr, -⟩ := severity?_eq_some.1 hs
    rw [hr]
    rcases hw with hw | hw
    · have hnone : afterWord "warning".toList (w ++ t) = none :=
        afterWord_eq_none_of_spells (a := 'e') (u := "rror".toList) hw (by decide) (by decide)
          (by decide) t
      rw [hnone, afterWord_append hw, Option.bind_none, Option.or_none]
      rfl
    · have hnone : afterWord "error".toList (w ++ t) = none :=
        afterWord_eq_none_of_spells (a := 'w') (u := "arning".toList) hw (by decide) (by decide)
          (by decide) t
      rw [hnone, afterWord_append hw, Option.bind_none, Option.none_or]
      rfl
  | none =>
    have hnone : ∀ word : String, (∀ w, Spells word.toList w → IsSeverity w) →
        afterWord word.toList r.rest = none := by
      intro word hword
      rw [Option.eq_none_iff_forall_ne_some]
      intro t ht
      obtain ⟨w, hw, hr⟩ := afterWord_eq_some.1 ht
      rw [hr, severity?_append (hword w hw)] at hs
      exact Option.some_ne_none _ hs
    rw [hnone "error" (fun _ => Or.inl), hnone "warning" (fun _ => Or.inr)]
    rfl

/-- The text of a severity is what its reader has passed. -/
theorem severity?_fst {s : List Char} {found : Severity × List Char} (h : severity? s = some found) :
    found.1 = severityOf (some (s.take (s.length - found.2.length))) := by
  obtain ⟨w, -, hs, hv⟩ := severity?_eq_some.1 h
  rw [take_sub_length hs]
  exact hv

theorem rejects_lineNumber : Rejects isBlank (Pattern.lineNumber.andThen k) := by
  rw [Pattern.lineNumber, andThen_row_cons]
  exact rejects_word (a := 'l') (u := "ine".toList) rfl (by decide)

theorem andThen_lineNumber (h : Rejects isDigit k) (r : Reading) :
    Pattern.lineNumber.andThen k r = (lineNumber? r.rest).bind fun (ds, s) =>
      k { parts := r.parts ++ [(.line, ds)], rest := s } := by
  have hgap : Rejects isBlank ((number .line).andThen k) :=
    rejects_number fun _ => Text.isDigit_eq_false_of_isBlank
  simp only [Pattern.lineNumber, andThen_row_cons, andThen_row_nil, andThen_word, andThen_gap hgap,
    andThen_number .line h, lineNumber?, Option.bind_eq_bind, Option.bind_assoc]

theorem andThen_columnNumber (h : Rejects isDigit k) (r : Reading) :
    Pattern.columnNumber.andThen k r = (columnNumber? r.rest).bind fun (ds, s) =>
      k { parts := r.parts ++ [(.column, ds)], rest := s } := by
  have hgap : Rejects isBlank ((number .column).andThen k) :=
    rejects_number fun _ => Text.isDigit_eq_false_of_isBlank
  have hword : Rejects isBlank ((word "column").andThen ((plus isBlank).andThen
      ((number .column).andThen k))) :=
    rejects_word (a := 'c') (u := "olumn".toList) rfl (by decide)
  simp only [Pattern.columnNumber, andThen_row_cons, andThen_row_nil, andThen_only,
    andThen_blanks hword, andThen_word, andThen_gap hgap, andThen_number .column h, columnNumber?,
    Option.bind_eq_bind, Option.bind_assoc]

/-- Where a column is, nothing can be made of the text without passing it. -/
theorem andThen_option_columnNumber (hd : Rejects isDigit k) (hc : Rejects (fun c => c = ',') k)
    (r : Reading) :
    (option Pattern.columnNumber).andThen k r =
      match columnNumber? r.rest with
      | some (ds, s) => k { parts := r.parts ++ [(.column, ds)], rest := s }
      | none => k r := by
  rw [andThen_option, andThen_columnNumber hd]
  cases hs : columnNumber? r.rest with
  | none => rfl
  | some found =>
    obtain ⟨ds, s⟩ := found
    obtain ⟨x, ⟨_, _, _, _, _, _, _, rfl⟩, hr, -⟩ := columnNumber?_eq_some.1 hs
    rw [List.cons_append] at hr
    rw [hc r ',' _ hr (decide_eq_true rfl), Option.or_none]
    rfl

end Readers

/-! ## Messages -/

/-- The text up to the end of the line, if there is any. -/
def upToLineEnd (s : List Char) : Option (List Char) :=
  if s.takeWhile (· ≠ '\n') = [] then none else some (s.takeWhile (· ≠ '\n'))

theorem upToLineEnd_lineEnd (s : List Char) : upToLineEnd ('\n' :: s) = none := rfl

theorem takeWhile_cons_of_ne {c : Char} (hc : c ≠ '\n') (s : List Char) :
    (c :: s).takeWhile (· ≠ '\n') = c :: s.takeWhile (· ≠ '\n') :=
  List.takeWhile_cons_of_pos (decide_eq_true hc)

theorem takeWhile_eq_nil_of_filter {s : List Char} (h : s.filter (· ≠ '\n') = []) :
    s.takeWhile (· ≠ '\n') = [] := by
  cases s with
  | nil => rfl
  | cons c s =>
    by_cases hc : c = '\n'
    · rw [hc]
      rfl
    · have hfilter : (c :: s).filter (· ≠ '\n') = c :: s.filter (· ≠ '\n') :=
        List.filter_cons_of_pos (decide_eq_true hc)
      rw [hfilter] at h
      exact absurd h (List.cons_ne_nil _ _)

theorem upToLineEnd_cons {c : Char} (hc : c ≠ '\n') (s : List Char) :
    upToLineEnd (c :: s) = some (c :: s.takeWhile (· ≠ '\n')) := by
  rw [upToLineEnd, takeWhile_cons_of_ne hc, if_neg (List.cons_ne_nil _ _)]

/-- Blanks are passed over as long as something else is there. Where there are only blanks, all of
them are passed over but the last one that does not end a line. -/
theorem findSome?_leftovers_isBlank (s : List Char) :
    (Pattern.leftovers isBlank s).findSome? upToLineEnd = message? s := by
  induction s with
  | nil => rfl
  | cons c s ih =>
    rw [Pattern.leftovers]
    by_cases hc : isBlank c = true
    · have hafter : afterBlanks (c :: s) = afterBlanks s := List.dropWhile_cons_of_pos hc
      rw [if_pos hc, List.findSome?_append, ih, List.findSome?_singleton, message?_eq, message?_eq,
        hafter]
      by_cases hs : afterBlanks s = []
      · rw [if_pos hs, if_pos hs]
        by_cases hn : c = '\n'
        · rw [hn, upToLineEnd_lineEnd, Option.or_none, List.filter_cons_of_neg (by simp)]
        · have hfilter : (c :: s).filter (· ≠ '\n') = c :: s.filter (· ≠ '\n') :=
            List.filter_cons_of_pos (decide_eq_true hn)
          rw [upToLineEnd_cons hn, hfilter]
          cases hf : s.filter (· ≠ '\n') with
          | nil =>
            rw [takeWhile_eq_nil_of_filter hf]
            rfl
          | cons d f =>
            rw [List.getLast?_cons_cons, List.getLast?_eq_some_getLast (List.cons_ne_nil d f)]
            rfl
      · rw [if_neg hs, if_neg hs, Option.some_or]
    · have hafter : afterBlanks (c :: s) = c :: s := List.dropWhile_cons_of_neg hc
      have hn : c ≠ '\n' := by
        rintro rfl
        exact hc (by decide)
      rw [if_neg hc, List.findSome?_singleton, message?_eq, hafter, if_neg (List.cons_ne_nil c s),
        upToLineEnd_cons hn, takeWhile_cons_of_ne hn]

section Messages
open Pattern

/-- Where any rest will do, the longest run is taken. -/
theorem andThen_star_total {accepts : Char → Bool} {f : Reading → α} (r : Reading) :
    (star accepts).andThen (fun t => some (f t)) r =
      some (f { parts := r.parts, rest := r.rest.dropWhile accepts }) := by
  have hhead : ∀ s : List Char, ∃ l, leftovers accepts s = s.dropWhile accepts :: l := by
    intro s
    induction s with
    | nil => exact ⟨[], rfl⟩
    | cons c s ih =>
      obtain ⟨l, hl⟩ := ih
      by_cases hc : accepts c = true
      · exact ⟨l ++ [c :: s], by rw [leftovers, if_pos hc, hl, List.dropWhile_cons_of_pos hc]; rfl⟩
      · exact ⟨[], by rw [leftovers, if_neg hc, List.dropWhile_cons_of_neg hc]⟩
  obtain ⟨l, hl⟩ := hhead r.rest
  rw [andThen_star_eq, hl, List.findSome?_cons]

/-- The occurrence of a reading that ends with a message. -/
def Reading.occurrenceWith (r : Reading) (message : List Char) : Occurrence :=
  Reading.occurrence { parts := r.parts ++ [(.message, message)], rest := [] }

theorem andThen_upToLineEnd (r : Reading) :
    (part .message (plus fun c => c ≠ '\n')).andThen (fun t => some t.occurrence) r =
      (upToLineEnd r.rest).map r.occurrenceWith := by
  rw [andThen_part, plus, andThen_both]
  cases hr : r.rest with
  | nil => rw [andThen_char_nil hr]; rfl
  | cons c s =>
    rw [andThen_char_cons hr]
    by_cases hn : c = '\n'
    · rw [if_neg (by simp [hn]), hn, upToLineEnd_lineEnd]
      rfl
    · rw [if_pos (decide_eq_true hn), andThen_star_total, upToLineEnd_cons hn]
      have hs : c :: s = (c :: s.takeWhile (· ≠ '\n')) ++ s.dropWhile (· ≠ '\n') := by
        rw [List.cons_append, List.takeWhile_append_dropWhile]
      dsimp only
      rw [take_sub_length hs]
      rfl

theorem andThen_message (r : Reading) :
    Pattern.message.andThen (fun t => some t.occurrence) r =
      (message? r.rest).bind fun message => some (r.occurrenceWith message) := by
  show _ = (message? r.rest).bind (some ∘ r.occurrenceWith)
  rw [← Option.map_eq_bind, Pattern.message, andThen_both, andThen_star_eq, ← findSome?_leftovers_isBlank,
    List.map_findSome?]
  refine congrArg (fun g => (leftovers isBlank r.rest).findSome? g) (funext fun s => ?_)
  exact andThen_upToLineEnd { parts := r.parts, rest := s }

/-- A judgement after parts that tell all but the severity and the message. -/
theorem andThen_judgement {r : Reading} {f : Severity → List Char → Occurrence}
    (hf : ∀ w message, Reading.occurrenceWith { parts := r.parts ++ [(.severity, w)], rest := [] }
      message = f (severityOf (some w)) message) :
    judgement.andThen (fun t => some t.occurrence) r =
      (judged? r.rest).bind fun (severity, message) => some (f severity message) := by
  have hword : ∀ k : Reading → Option Occurrence,
      Rejects isBlank ((either (word "error") (word "warning")).andThen k) := fun k =>
    rejects_either (rejects_word (a := 'e') (u := "rror".toList) rfl (by decide))
      (rejects_word (a := 'w') (u := "arning".toList) rfl (by decide))
  simp only [judgement, andThen_row_cons, andThen_row_nil, andThen_blanks (rejects_part hword),
    andThen_severity, andThen_only, andThen_message, judged?, Option.bind_eq_bind,
    Option.bind_assoc]
  refine Option.bind_congr fun found hfound => ?_
  refine Option.bind_congr fun s _ => Option.bind_congr fun message _ => ?_
  rw [severity?_fst hfound]
  exact congrArg some (hf _ message)

end Messages

/-! ## Shapes -/

section Shapes
open Pattern

theorem andThen_line (s : List Char) :
    Shape.line.pattern.andThen (fun t => some t.occurrence) { rest := s } = readLine s := by
  have hcolon : ∀ k : Reading → Option Occurrence, Rejects isDigit ((only ':').andThen k) :=
    fun k => rejects_only (by decide)
  simp only [Shape.pattern, andThen_row_cons, andThen_row_nil, andThen_lineNumber (hcolon _),
    andThen_only, andThen_message]
  rfl

theorem andThen_errorLine (s : List Char) :
    Shape.errorLine.pattern.andThen (fun t => some t.occurrence) { rest := s } =
      readErrorLine s := by
  have hcolon : ∀ k : Reading → Option Occurrence, Rejects isDigit ((only ':').andThen k) :=
    fun k => rejects_only (by decide)
  simp only [Shape.pattern, andThen_row_cons, andThen_row_nil, andThen_word, andThen_only,
    andThen_blanks rejects_lineNumber, andThen_lineNumber (hcolon _), andThen_message]
  rfl

theorem andThen_errorAt (s : List Char) :
    Shape.errorAt.pattern.andThen (fun t => some t.occurrence) { rest := s } = readErrorAt s := by
  have hcolon : ∀ k : Reading → Option Occurrence, Rejects isDigit ((only ':').andThen k) :=
    fun k => rejects_only (by decide)
  have hcomma : ∀ k : Reading → Option Occurrence,
      Rejects (fun c => c = ',') ((only ':').andThen k) := fun k => rejects_only (by decide)
  have hcolumn : ∀ k : Reading → Option Occurrence,
      Rejects isDigit ((option Pattern.columnNumber).andThen ((only ':').andThen k)) := by
    intro k
    refine rejects_option ?_ (hcolon k)
    rw [Pattern.columnNumber, andThen_row_cons]
    exact rejects_only (by decide)
  have hat : ∀ k : Reading → Option Occurrence, Rejects isBlank ((word "at").andThen k) :=
    fun k => rejects_word (a := 'a') (u := ['t']) rfl (by decide)
  simp only [Shape.pattern, andThen_row_cons, andThen_row_nil, andThen_word, andThen_gap (hat _),
    andThen_gap rejects_lineNumber, andThen_lineNumber (hcolumn _),
    andThen_option_columnNumber (hcolon _) (hcomma _), andThen_only, andThen_message]
  unfold readErrorAt
  refine Option.bind_congr fun s₁ _ => Option.bind_congr fun s₂ _ => Option.bind_congr fun s₃ _ =>
    Option.bind_congr fun s₄ _ => Option.bind_congr fun (ds, s₅) _ => ?_
  dsimp only
  cases columnNumber? s₅ with
  | none => rfl
  | some found => rfl

theorem andThen_located (s : List Char) :
    Shape.located.pattern.andThen (fun t => some t.occurrence) { rest := s } =
      if s.takeWhile (· ≠ ':') = [] then none
      else (afterChar ':' (s.dropWhile (· ≠ ':'))).bind readLocated := by
  have hjudged : ∀ line column rest : List Char,
      judgement.andThen (fun t => some t.occurrence)
        { parts := [] ++ [(.line, line)] ++ [(.column, column)], rest } =
      (judged? rest).bind fun (severity, message) =>
        some { line, column := some column, severity, message } :=
    fun line column rest => andThen_judgement fun _ _ => rfl
  have hcolon : ∀ k : Reading → Option Occurrence, Rejects isDigit ((only ':').andThen k) :=
    fun k => rejects_only (by decide)
  have hname : ∀ k : Reading → Option Occurrence, Rejects (fun c => c ≠ ':') ((only ':').andThen k) :=
    fun k => rejects_only (by decide)
  simp only [Shape.pattern, andThen_row_cons, andThen_row_nil, andThen_plus (hname _), andThen_only,
    andThen_number _ (hcolon _), hjudged]
  rfl

theorem andThen_called (s : List Char) :
    Shape.called.pattern.andThen (fun t => some t.occurrence) { rest := s } =
      if s.takeWhile (· ≠ '(') = [] then none
      else (afterChar '(' (s.dropWhile (· ≠ '('))).bind readCalled := by
  have hjudged : ∀ line rest : List Char,
      judgement.andThen (fun t => some t.occurrence) { parts := [] ++ [(.line, line)], rest } =
      (judged? rest).bind fun (severity, message) => some { line, severity, message } :=
    fun line rest => andThen_judgement fun _ _ => rfl
  have hclose : ∀ k : Reading → Option Occurrence, Rejects isDigit ((only ')').andThen k) :=
    fun k => rejects_only (by decide)
  have hname : ∀ k : Reading → Option Occurrence, Rejects (fun c => c ≠ '(') ((only '(').andThen k) :=
    fun k => rejects_only (by decide)
  simp only [Shape.pattern, andThen_row_cons, andThen_row_nil, andThen_plus (hname _), andThen_only,
    andThen_number _ (hclose _), hjudged]
  rfl

end Shapes

/-! ## The first place -/

section Places
open Pattern

theorem head?_map_occurrence (p : Pattern) (s : List Char) :
    (p.readings s).head?.map Reading.occurrence =
      p.andThen (fun t => some t.occurrence) { rest := s } := by
  unfold andThen
  cases p.readings s <;> rfl

theorem search_nil_map_occurrence (p : Pattern) :
    (p.search []).map Reading.occurrence = p.andThen (fun t => some t.occurrence) { rest := [] } := by
  rw [search, head?_map_occurrence]

theorem search_cons_map_occurrence (p : Pattern) (c : Char) (s : List Char) :
    (p.search (c :: s)).map Reading.occurrence =
      (p.andThen (fun t => some t.occurrence) { rest := c :: s }).or
        ((p.search s).map Reading.occurrence) := by
  rw [search, Option.map_or, head?_map_occurrence]

/-- A shape that may begin anywhere. -/
theorem firstAt_eq_search {p : Pattern} {read : List Char → Option Occurrence}
    (h : ∀ s, p.andThen (fun t => some t.occurrence) { rest := s } = read s) (s : List Char) :
    firstAt read s = (p.search s).map Reading.occurrence := by
  induction s with
  | nil => rw [search_nil_map_occurrence, firstAt, h]
  | cons c s ih =>
    rw [search_cons_map_occurrence, firstAt, h, ← ih]
    cases read (c :: s) <;> rfl

/-- What is read after the first separator, whatever stands before it. -/
def afterSeparator (separator : Char) (read : List Char → Option Occurrence) (s : List Char) :
    Option Occurrence :=
  (afterChar separator (s.dropWhile (· ≠ separator))).bind read

/-- A shape that begins with a name and a separator. A name that is longer than one character gives
the same separator at each of its characters, so it is enough to try that once. -/
theorem firstAfter_eq_search {p : Pattern} {separator : Char} {read : List Char → Option Occurrence}
    (h : ∀ s, p.andThen (fun t => some t.occurrence) { rest := s } =
      if s.takeWhile (· ≠ separator) = [] then none else afterSeparator separator read s)
    (s : List Char) :
    firstAfter separator read false s = (p.search s).map Reading.occurrence ∧
      firstAfter separator read true s =
        (afterSeparator separator read s).or ((p.search s).map Reading.occurrence) := by
  induction s with
  | nil =>
    rw [search_nil_map_occurrence, h, firstAfter, firstAfter]
    exact ⟨rfl, rfl⟩
  | cons c s ih =>
    obtain ⟨ihf, iht⟩ := ih
    rw [search_cons_map_occurrence, h, firstAfter, firstAfter, ← ihf]
    by_cases hc : c = separator
    · have htake : (c :: s).takeWhile (· ≠ separator) = [] :=
        List.takeWhile_cons_of_neg (by simp [hc])
      have hafter : afterSeparator separator read (c :: s) = read s := by
        have hdrop : (c :: s).dropWhile (· ≠ separator) = c :: s :=
          List.dropWhile_cons_of_neg (by simp [hc])
        rw [afterSeparator, hdrop, hc, afterChar_cons, Option.bind_some]
      rw [if_pos hc, if_pos hc, if_pos htake, hafter, Option.none_or]
      refine ⟨rfl, ?_⟩
      rw [if_pos rfl]
      cases read s <;> rfl
    · have htake : (c :: s).takeWhile (· ≠ separator) = c :: s.takeWhile (· ≠ separator) :=
        List.takeWhile_cons_of_pos (decide_eq_true hc)
      have hafter : afterSeparator separator read (c :: s) = afterSeparator separator read s := by
        have hdrop : (c :: s).dropWhile (· ≠ separator) = s.dropWhile (· ≠ separator) :=
          List.dropWhile_cons_of_pos (decide_eq_true hc)
        rw [afterSeparator, afterSeparator, hdrop]
      rw [if_neg hc, if_neg hc, htake, if_neg (List.cons_ne_nil _ _), hafter, iht, ← ihf]
      refine ⟨rfl, ?_⟩
      cases afterSeparator separator read s <;> rfl

/-- A shape finds in a line what the search for its pattern finds. -/
theorem find_eq_search (shape : Shape) (s : List Char) :
    shape.find s = (shape.pattern.search s).map Reading.occurrence := by
  cases shape with
  | located => exact (firstAfter_eq_search andThen_located s).1
  | line => exact firstAt_eq_search andThen_line s
  | errorAt => exact firstAt_eq_search andThen_errorAt s
  | called => exact (firstAfter_eq_search andThen_called s).1
  | errorLine => exact firstAt_eq_search andThen_errorLine s

end Places

end Workbench.Diagnostic
