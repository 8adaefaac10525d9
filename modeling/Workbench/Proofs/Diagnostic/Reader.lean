import Mathlib.Data.List.Forall2
import Workbench.Diagnostic.Pattern
import Workbench.Proofs.Text.Blank

/-!
# What the parts of a shape accept

For each small reader of a message, the texts that it reads and what it leaves:

* `Spells word s` : `s` is the word, each letter in upper or lower case;
* `afterWord_eq_some`, `afterChar_eq_some`, `afterGap_eq_some`, `digits?_eq_some`,
  `severity?_eq_some`, `lineNumber?_eq_some`, `columnNumber?_eq_some` : a reader succeeds exactly on
  the texts of its form;
* `message?_eq`, `message?_eq_some` : the message of a text, and of one without line ends.
-/

namespace Workbench.Diagnostic
open Text (isBlank isDigit Stops trim blankPoints)

/-! ## Letters -/

/-- The text is the word, each letter in upper or lower case. -/
def Spells (word s : List Char) : Prop := List.Forall₂ (fun letter c => isLetter letter c = true) word s

theorem isLetter_eq_false_of_isBlank {letter c : Char} (hl : isBlank letter = false)
    (hc : isBlank c = true) : isLetter letter c = false := by
  have hcap : c ≠ '\u0130' := by rintro rfl; exact absurd hc (by decide)
  have hsmall : c ≠ '\u0131' := by rintro rfl; exact absurd hc (by decide)
  have hne : c ≠ letter := by rintro rfl; rw [hc] at hl; exact Bool.noConfusion hl
  simp [isLetter, Text.toLower_of_isBlank hc, hne, hcap, hsmall]

theorem Spells.length_eq {word s : List Char} (h : Spells word s) : s.length = word.length :=
  (List.Forall₂.length_eq h).symm

/-- A word in capitals, or in any mixture of capitals and small letters. -/
theorem spells_of_map_toLower {word s : List Char} (h : s.map Char.toLower = word) :
    Spells word s := by
  subst h
  induction s with
  | nil => exact List.Forall₂.nil
  | cons c s ih =>
    have hc : isLetter c.toLower c = true := by
      unfold isLetter
      rw [decide_eq_true rfl, Bool.true_or]
    exact List.Forall₂.cons hc ih

theorem Spells.exists_cons {a : Char} {u s : List Char} (h : Spells (a :: u) s) :
    ∃ c x, isLetter a c = true ∧ Spells u x ∧ s = c :: x :=
  List.forall₂_cons_left_iff.1 h

/-- A word is not taken for a blank. -/
theorem Spells.stops_append {a : Char} {u s : List Char} (h : Spells (a :: u) s)
    (ha : isBlank a = false) (t : List Char) : Stops isBlank (s ++ t) := by
  obtain ⟨c, x, hc, -, rfl⟩ := h.exists_cons
  rw [List.cons_append, Text.stops_cons]
  by_contra hb
  rw [isLetter_eq_false_of_isBlank ha (by simpa using hb)] at hc
  exact Bool.noConfusion hc

theorem afterWord_append {word x : List Char} (h : Spells word x) (s : List Char) :
    afterWord word (x ++ s) = some s := by
  induction h with
  | nil => rfl
  | cons hc _ ih => rw [List.cons_append, afterWord, if_pos hc, ih]

theorem afterWord_eq_some {word s t : List Char} :
    afterWord word s = some t ↔ ∃ x, Spells word x ∧ s = x ++ t := by
  constructor
  · intro h
    induction word generalizing s with
    | nil =>
      rw [afterWord, Option.some.injEq] at h
      exact ⟨[], List.Forall₂.nil, h⟩
    | cons letter word ih =>
      cases s with
      | nil => simp [afterWord] at h
      | cons c s =>
        rw [afterWord] at h
        split at h
        · next hc =>
          obtain ⟨x, hx, rfl⟩ := ih h
          exact ⟨c :: x, List.Forall₂.cons hc hx, rfl⟩
        · exact absurd h (by simp)
  · rintro ⟨x, hx, rfl⟩
    exact afterWord_append hx t

theorem isLetter_of_ne {letter : Char} (h : letter ≠ 'i') (c : Char) :
    isLetter letter c = true ↔ c.toLower = letter := by
  simp [isLetter, h]

/-- Words with different first letters are not taken for each other. -/
theorem afterWord_eq_none_of_spells {a b : Char} {u v x : List Char} (h : Spells (a :: u) x)
    (ha : a ≠ 'i') (hb : b ≠ 'i') (hab : a ≠ b) (s : List Char) :
    afterWord (b :: v) (x ++ s) = none := by
  obtain ⟨c, y, hc, -, rfl⟩ := h.exists_cons
  have hca : c.toLower = a := (isLetter_of_ne ha c).1 hc
  have hcb : ¬ isLetter b c = true := by
    rw [isLetter_of_ne hb, hca]
    exact hab
  rw [List.cons_append, afterWord, if_neg hcb]

theorem afterChar_eq_some {x : Char} {s t : List Char} : afterChar x s = some t ↔ s = x :: t := by
  cases s with
  | nil => simp [afterChar]
  | cons c s => by_cases hc : c = x <;> simp [afterChar, hc]

@[simp] theorem afterChar_cons (x : Char) (s : List Char) : afterChar x (x :: s) = some s :=
  afterChar_eq_some.2 rfl

/-! ## Blanks -/

/-- A text of blanks. -/
def Blanks (s : List Char) : Prop := ∀ c ∈ s, isBlank c = true

/-- A text of blanks that is not empty. -/
def Gap (s : List Char) : Prop := s ≠ [] ∧ Blanks s

theorem afterBlanks_append {gap s : List Char} (hg : Blanks gap) (hs : Stops isBlank s) :
    afterBlanks (gap ++ s) = s :=
  Text.dropWhile_append_of_stops hg hs

theorem exists_afterBlanks (s : List Char) :
    ∃ gap, Blanks gap ∧ s = gap ++ afterBlanks s ∧ Stops isBlank (afterBlanks s) :=
  ⟨s.takeWhile isBlank, fun _ hc => List.mem_takeWhile_imp hc,
    List.takeWhile_append_dropWhile.symm, Text.stops_dropWhile isBlank s⟩

theorem afterGap_append {gap s : List Char} (h : Gap gap) (hs : Stops isBlank s) :
    afterGap (gap ++ s) = some s := by
  obtain ⟨hne, hg⟩ := h
  cases gap with
  | nil => exact absurd rfl hne
  | cons c gap =>
    rw [List.cons_append, afterGap, if_pos (hg c List.mem_cons_self),
      afterBlanks_append (fun d hd => hg d (List.mem_cons_of_mem c hd)) hs]

theorem afterGap_eq_some {s t : List Char} :
    afterGap s = some t ↔ ∃ gap, Gap gap ∧ s = gap ++ t ∧ Stops isBlank t := by
  constructor
  · intro h
    cases s with
    | nil => simp [afterGap] at h
    | cons c s =>
      rw [afterGap] at h
      split at h
      · next hc =>
        rw [Option.some.injEq] at h
        subst h
        obtain ⟨gap, hg, hs, hstop⟩ := exists_afterBlanks s
        refine ⟨c :: gap, ⟨List.cons_ne_nil c gap, ?_⟩, congrArg (c :: ·) hs, hstop⟩
        intro d hd
        rcases List.mem_cons.1 hd with rfl | hd
        · exact hc
        · exact hg d hd
      · exact absurd h (by simp)
  · rintro ⟨gap, hg, rfl, hs⟩
    exact afterGap_append hg hs

/-! ## Numbers -/

/-- A row of digits. -/
def Digits (s : List Char) : Prop := s ≠ [] ∧ ∀ c ∈ s, isDigit c = true

/-- A row of digits is not taken for a blank. -/
theorem Digits.stops_append {ds : List Char} (h : Digits ds) (t : List Char) :
    Stops isBlank (ds ++ t) := by
  obtain ⟨hne, hd⟩ := h
  cases ds with
  | nil => exact absurd rfl hne
  | cons c ds =>
    rw [List.cons_append, Text.stops_cons]
    exact Text.isBlank_eq_false_of_isDigit (hd c List.mem_cons_self)

theorem digits?_eq (s : List Char) :
    digits? s = if s.takeWhile isDigit = [] then none
      else some (s.takeWhile isDigit, s.dropWhile isDigit) := by
  unfold digits?
  split
  · next h => rw [if_pos h]
  · next h => rw [if_neg h]

theorem digits?_append {ds s : List Char} (h : Digits ds) (hs : Stops isDigit s) :
    digits? (ds ++ s) = some (ds, s) := by
  rw [digits?_eq, Text.takeWhile_append_of_stops h.2 hs, Text.dropWhile_append_of_stops h.2 hs,
    if_neg h.1]

theorem digits?_eq_some {s ds t : List Char} :
    digits? s = some (ds, t) ↔ Digits ds ∧ s = ds ++ t ∧ Stops isDigit t := by
  constructor
  · intro h
    rw [digits?_eq] at h
    split at h
    · exact absurd h (by simp)
    · next hne =>
      obtain ⟨rfl, rfl⟩ := Prod.mk.inj (Option.some.inj h)
      exact ⟨⟨hne, fun _ hc => List.mem_takeWhile_imp hc⟩, List.takeWhile_append_dropWhile.symm,
        Text.stops_dropWhile isDigit s⟩
  · rintro ⟨hd, rfl, hs⟩
    exact digits?_append hd hs

/-- The word `line` with a number. -/
def IsLineNumber (x ds : List Char) : Prop :=
  ∃ w gap, Spells "line".toList w ∧ Gap gap ∧ Digits ds ∧ x = w ++ (gap ++ ds)

theorem IsLineNumber.stops_append {x ds : List Char} (h : IsLineNumber x ds) (t : List Char) :
    Stops isBlank (x ++ t) := by
  obtain ⟨w, gap, hw, -, -, rfl⟩ := h
  rw [List.append_assoc]
  exact Spells.stops_append (a := 'l') (u := "ine".toList) hw (by decide) _

theorem lineNumber?_append {x ds s : List Char} (h : IsLineNumber x ds) (hs : Stops isDigit s) :
    lineNumber? (x ++ s) = some (ds, s) := by
  obtain ⟨w, gap, hw, hg, hd, rfl⟩ := h
  simp only [lineNumber?, List.append_assoc, afterWord_append hw, Option.bind_eq_bind,
    Option.bind_some, afterGap_append hg (hd.stops_append s), digits?_append hd hs]

theorem lineNumber?_eq_some {s ds t : List Char} :
    lineNumber? s = some (ds, t) ↔ ∃ x, IsLineNumber x ds ∧ s = x ++ t ∧ Stops isDigit t := by
  constructor
  · intro h
    simp only [lineNumber?, Option.bind_eq_bind, Option.bind_eq_some_iff] at h
    obtain ⟨s₁, h₁, s₂, h₂, h₃⟩ := h
    obtain ⟨w, hw, rfl⟩ := afterWord_eq_some.1 h₁
    obtain ⟨gap, hg, rfl, -⟩ := afterGap_eq_some.1 h₂
    obtain ⟨hd, rfl, hs⟩ := digits?_eq_some.1 h₃
    exact ⟨w ++ (gap ++ ds), ⟨w, gap, hw, hg, hd, rfl⟩, by simp, hs⟩
  · rintro ⟨x, hx, rfl, hs⟩
    exact lineNumber?_append hx hs

/-- A comma, the word `column` and a number. -/
def IsColumnNumber (x ds : List Char) : Prop :=
  ∃ gap w gap', Blanks gap ∧ Spells "column".toList w ∧ Gap gap' ∧ Digits ds ∧
    x = ',' :: (gap ++ (w ++ (gap' ++ ds)))

theorem IsColumnNumber.stops_append {x ds : List Char} (h : IsColumnNumber x ds) (t : List Char) :
    Stops isDigit (x ++ t) := by
  obtain ⟨_, _, _, _, _, _, _, rfl⟩ := h
  exact Text.stops_cons.2 (by decide)

theorem columnNumber?_append {x ds s : List Char} (h : IsColumnNumber x ds) (hs : Stops isDigit s) :
    columnNumber? (x ++ s) = some (ds, s) := by
  obtain ⟨gap, w, gap', hg, hw, hg', hd, rfl⟩ := h
  have hstop : Stops isBlank (w ++ (gap' ++ (ds ++ s))) := hw.stops_append (by decide) _
  simp only [columnNumber?, List.cons_append, List.append_assoc, afterChar_cons,
    Option.bind_eq_bind, Option.bind_some, afterBlanks_append hg hstop, afterWord_append hw,
    afterGap_append hg' (hd.stops_append s), digits?_append hd hs]

theorem columnNumber?_eq_some {s ds t : List Char} :
    columnNumber? s = some (ds, t) ↔ ∃ x, IsColumnNumber x ds ∧ s = x ++ t ∧ Stops isDigit t := by
  constructor
  · intro h
    simp only [columnNumber?, Option.bind_eq_bind, Option.bind_eq_some_iff] at h
    obtain ⟨s₁, h₁, s₂, h₂, s₃, h₃, h₄⟩ := h
    rw [afterChar_eq_some] at h₁
    obtain ⟨gap, hg, hgap, -⟩ := exists_afterBlanks s₁
    obtain ⟨w, hw, hword⟩ := afterWord_eq_some.1 h₂
    obtain ⟨gap', hg', rfl, -⟩ := afterGap_eq_some.1 h₃
    obtain ⟨hd, rfl, hs⟩ := digits?_eq_some.1 h₄
    refine ⟨',' :: (gap ++ (w ++ (gap' ++ ds))), ⟨gap, w, gap', hg, hw, hg', hd, rfl⟩, ?_, hs⟩
    rw [h₁, hgap, hword]
    simp
  · rintro ⟨x, hx, rfl, hs⟩
    exact columnNumber?_append hx hs

/-! ## Severities -/

/-- One of the two words for a severity. -/
def IsSeverity (w : List Char) : Prop := Spells "error".toList w ∨ Spells "warning".toList w

theorem IsSeverity.stops_append {w : List Char} (h : IsSeverity w) (t : List Char) :
    Stops isBlank (w ++ t) := by
  rcases h with h | h
  · exact Spells.stops_append (a := 'e') (u := "rror".toList) h (by decide) t
  · exact Spells.stops_append (a := 'w') (u := "arning".toList) h (by decide) t

theorem severityOf_of_length_ne {w : List Char} (h : w.length ≠ "warning".toList.length) :
    severityOf (some w) = .error := by
  have hne : w.map Char.toLower ≠ "warning".toList := by
    intro he
    rw [← he, List.length_map] at h
    exact h rfl
  unfold severityOf
  rw [Option.any_some, decide_eq_false hne]
  rfl

theorem severity?_append {w : List Char} (h : IsSeverity w) (s : List Char) :
    severity? (w ++ s) = some (severityOf (some w), s) := by
  unfold severity?
  rcases h with h | h
  · have hlen : w.length ≠ "warning".toList.length := by
      rw [h.length_eq]
      decide
    rw [afterWord_append h, severityOf_of_length_ne hlen]
  · have htake : (w ++ s).take "warning".toList.length = w := by
      rw [← h.length_eq, List.take_left]
    have hnone : afterWord "error".toList (w ++ s) = none :=
      afterWord_eq_none_of_spells (a := 'w') (u := "arning".toList) h (by decide) (by decide)
        (by decide) s
    rw [hnone]
    dsimp only
    rw [afterWord_append h, htake]
    simp only [severityOf, Option.any_some, decide_eq_true_eq]

theorem severity?_eq_some {s t : List Char} {severity : Severity} :
    severity? s = some (severity, t) ↔
      ∃ w, IsSeverity w ∧ s = w ++ t ∧ severity = severityOf (some w) := by
  constructor
  · intro h
    have hw : ∃ w u, IsSeverity w ∧ s = w ++ u := by
      unfold severity? at h
      split at h
      · next u hu =>
        obtain ⟨w, hw, hs⟩ := afterWord_eq_some.1 hu
        exact ⟨w, u, Or.inl hw, hs⟩
      · dsimp only at h
        split at h
        · next u hu =>
          obtain ⟨w, hw, hs⟩ := afterWord_eq_some.1 hu
          exact ⟨w, u, Or.inr hw, hs⟩
        · exact absurd h (by simp)
    obtain ⟨w, u, hw, rfl⟩ := hw
    rw [severity?_append hw] at h
    obtain ⟨rfl, rfl⟩ := Prod.mk.inj (Option.some.inj h)
    exact ⟨w, hw, rfl, rfl⟩
  · rintro ⟨w, hw, rfl, rfl⟩
    exact severity?_append hw t

/-! ## Messages -/

/-- A text without line ends. -/
def OneLine (s : List Char) : Prop := '\n' ∉ s

theorem OneLine.of_suffix {s t : List Char} (h : OneLine s) (ht : t <:+ s) : OneLine t :=
  fun hm => h (ht.mem hm)

theorem OneLine.ne_of_mem {s : List Char} (h : OneLine s) {c : Char} (hc : c ∈ s) : c ≠ '\n' :=
  fun he => h (he ▸ hc)

theorem takeWhile_of_oneLine {s : List Char} (h : OneLine s) : s.takeWhile (· ≠ '\n') = s := by
  rw [List.takeWhile_eq_self_iff]
  intro c hc
  exact decide_eq_true (h.ne_of_mem hc)

theorem filter_of_oneLine {s : List Char} (h : OneLine s) : s.filter (· ≠ '\n') = s := by
  rw [List.filter_eq_self]
  intro c hc
  exact decide_eq_true (h.ne_of_mem hc)

/-- The text that is taken for the message, which may begin or end with blanks. -/
def messageOf (s : List Char) : List Char := (message? s).getD []

theorem message?_eq (s : List Char) :
    message? s = if afterBlanks s = [] then (s.filter (· ≠ '\n')).getLast?.map ([·])
      else some ((afterBlanks s).takeWhile (· ≠ '\n')) := by
  unfold message?
  split
  · next h => rw [if_pos h]
  · next h => rw [if_neg h]

theorem message?_eq_some {s m : List Char} (h : OneLine s) :
    message? s = some m ↔ s ≠ [] ∧ m = messageOf s := by
  constructor
  · intro hm
    refine ⟨?_, by rw [messageOf, hm]; rfl⟩
    rintro rfl
    exact Option.some_ne_none m (show some m = none from hm.symm)
  · rintro ⟨hne, rfl⟩
    rw [messageOf, message?_eq, filter_of_oneLine h]
    split
    · rw [List.getLast?_eq_some_getLast hne]
      rfl
    · rfl

/-- Nothing but blanks is lost of a message. -/
theorem trim_messageOf {s : List Char} (h : OneLine s) : trim (messageOf s) = trim s := by
  rw [messageOf, message?_eq, filter_of_oneLine h]
  split
  · next hb =>
    -- all characters are blanks, and so is the one that is taken
    have hall : ∀ c ∈ s, isBlank c = true := List.dropWhile_eq_nil_iff.1 hb
    rw [Text.trim_eq_nil_iff.2 hall, Text.trim_eq_nil_iff]
    intro c hc
    cases hl : s.getLast? with
    | none =>
      rw [hl] at hc
      exact absurd hc List.not_mem_nil
    | some d =>
      rw [hl] at hc
      rw [List.mem_singleton.1 hc]
      exact hall d (List.mem_of_getLast? hl)
  · have ho : OneLine (afterBlanks s) := h.of_suffix (List.dropWhile_suffix isBlank)
    rw [Option.getD_some, takeWhile_of_oneLine ho]
    exact Text.trim_trimStart s

end Workbench.Diagnostic
