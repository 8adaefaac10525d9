import Workbench.Proofs.Diagnostic.Pattern
import Workbench.Proofs.Record

/-!
# The severity of a message and the word for it

The pattern of a shape has one alternative for each word for a severity. A word is read in upper and
lower case, and an `i` may also be the dotted capital or the dotless small one; the severity is that
of the word in plain small letters.

* `Pattern.Reads p w` : the text `w` as a whole has the pattern;
* `Pattern.names p` : the parts that a pattern can mark (`keys_of_mem_readings`);
* `Marks p name ok` : whatever reading a pattern has, it marks a part in which `ok` holds;
* `map_toLower_eq_iff` : a spelling of a word is the word in small letters unless it has one of the
  two letters;
* `severity_of_alternative` : the severity of a diagnostic, by the alternative that its word has.
-/

namespace Workbench.Diagnostic

/-! ## What readings mark -/

namespace Pattern

/-- The text as a whole has the pattern. -/
def Reads (p : Pattern) (w : List Char) : Prop := ∃ r ∈ p.readings w, r.rest = []

/-- The parts that a pattern can mark. -/
def names : Pattern → List Part
  | .nothing | .char _ | .star _ => []
  | .both p q | .either p q => p.names ++ q.names
  | .option p => p.names
  | .part name p => p.names ++ [name]

theorem mem_readings_char {accepts : Char → Bool} {s : List Char} {r : Reading} :
    r ∈ (char accepts).readings s ↔ ∃ c t, s = c :: t ∧ accepts c = true ∧ r = { rest := t } := by
  cases s with
  | nil => simp [readings_char_nil]
  | cons c s => by_cases hc : accepts c = true <;> simp [readings_char_cons, hc]

theorem mem_readings_both {p q : Pattern} {s : List Char} {r : Reading} :
    r ∈ (both p q).readings s ↔ ∃ t ∈ p.readings s, ∃ u ∈ q.readings t.rest,
      r = { parts := t.parts ++ u.parts, rest := u.rest } := by
  simp only [readings_both, List.mem_flatMap, List.mem_map, eq_comm (a := r)]

theorem mem_readings_part {p : Pattern} {name : Part} {s : List Char} {r : Reading} :
    r ∈ (part name p).readings s ↔ ∃ t ∈ p.readings s,
      r = { parts := t.parts ++ [(name, s.take (s.length - t.rest.length))], rest := t.rest } := by
  simp only [readings_part, List.mem_map, eq_comm (a := r)]

/-- A reading marks nothing but the parts that are named. -/
theorem keys_of_mem_readings {p : Pattern} {s : List Char} {r : Reading} (h : r ∈ p.readings s) :
    ∀ name ∈ Record.keys r.parts, name ∈ p.names := by
  induction p generalizing s r with
  | nothing =>
    obtain rfl := List.mem_singleton.1 h
    exact fun _ hname => hname
  | char accepts =>
    obtain ⟨c, t, -, -, rfl⟩ := mem_readings_char.1 h
    exact fun _ hname => hname
  | star accepts =>
    obtain ⟨rest, -, rfl⟩ := List.mem_map.1 h
    exact fun _ hname => hname
  | both p q ihp ihq =>
    obtain ⟨t, ht, u, hu, rfl⟩ := mem_readings_both.1 h
    intro name hname
    rw [Record.keys, List.map_append, List.mem_append] at hname
    exact List.mem_append.2 (hname.imp (ihp ht name) (ihq hu name))
  | either p q ihp ihq =>
    intro name hname
    rcases List.mem_append.1 h with h | h
    · exact List.mem_append_left _ (ihp h name hname)
    · exact List.mem_append_right _ (ihq h name hname)
  | option p ih =>
    intro name hname
    rcases List.mem_append.1 h with h | h
    · exact ih h name hname
    · obtain rfl := List.mem_singleton.1 h
      exact (List.not_mem_nil hname).elim
  | part name' p ih =>
    obtain ⟨t, ht, rfl⟩ := mem_readings_part.1 h
    intro name hname
    rw [Record.keys, List.map_append, List.mem_append] at hname
    exact List.mem_append.2 (hname.imp (ih ht name) id)

theorem get?_of_not_mem_names {p : Pattern} {s : List Char} {r : Reading} {name : Part}
    (h : r ∈ p.readings s) (hname : name ∉ p.names) : r.parts.get? name = none :=
  Record.get?_eq_none_iff.2 fun hkey => hname (keys_of_mem_readings h name hkey)

/-- Every reading marks the part, with a text in which this holds. -/
def Marks (p : Pattern) (name : Part) (ok : List Char → Prop) : Prop :=
  ∀ s, ∀ r ∈ p.readings s, ∃ w, r.parts.get? name = some w ∧ ok w

section Marks
variable {p q : Pattern} {name : Part} {ok : List Char → Prop}

theorem Marks.both_left (h : Marks p name ok) : Marks (both p q) name ok := by
  intro s r hr
  obtain ⟨t, ht, u, -, rfl⟩ := mem_readings_both.1 hr
  obtain ⟨w, hw, hok⟩ := h s t ht
  exact ⟨w, by rw [Record.get?_append, hw, Option.some_or], hok⟩

theorem Marks.both_right (hp : name ∉ p.names) (h : Marks q name ok) :
    Marks (both p q) name ok := by
  intro s r hr
  obtain ⟨t, ht, u, hu, rfl⟩ := mem_readings_both.1 hr
  -- What the first pattern marks comes before, but it does not mark this part.
  obtain ⟨w, hw, hok⟩ := h _ u hu
  exact ⟨w, by rw [Record.get?_append, get?_of_not_mem_names ht hp, Option.none_or, hw], hok⟩

/-- Among patterns in a row, the first one that can mark the part counts. -/
theorem Marks.row (h : Marks q name ok) (before after : List Pattern)
    (hbefore : ∀ p ∈ before, name ∉ p.names) : Marks (row (before ++ q :: after)) name ok := by
  induction before with
  | nil => exact h.both_left
  | cons p before ih =>
    obtain ⟨hp, hbefore⟩ := List.forall_mem_cons.1 hbefore
    exact (ih hbefore).both_right hp

theorem marks_part (hp : name ∉ p.names)
    (h : ∀ s, ∀ r ∈ p.readings s, ok (s.take (s.length - r.rest.length))) :
    Marks (part name p) name ok := by
  intro s r hr
  obtain ⟨t, ht, rfl⟩ := mem_readings_part.1 hr
  refine ⟨_, ?_, h s t ht⟩
  rw [Record.get?_append, get?_of_not_mem_names ht hp, Option.none_or]
  exact if_pos rfl

end Marks

/-- The reading that a search comes to is one of the rest of the text at some place. -/
theorem exists_mem_readings_of_search {p : Pattern} {s : List Char} {r : Reading}
    (h : p.search s = some r) : ∃ t, r ∈ p.readings t := by
  induction s with
  | nil => exact ⟨[], List.mem_of_head? h⟩
  | cons c s ih =>
    rw [search] at h
    rcases Option.or_eq_some_iff.1 h with hhere | ⟨-, hlater⟩
    · exact ⟨c :: s, List.mem_of_head? hhere⟩
    · exact ih hlater

/-! ## Words -/

theorem mem_readings_letters {letters s : List Char} {r : Reading} :
    r ∈ (row (letters.map fun letter => char (isLetter letter))).readings s ↔
      r.parts = [] ∧ ∃ x, Spells letters x ∧ s = x ++ r.rest := by
  induction letters generalizing s r with
  | nil =>
    have hnil : ∀ x : List Char, Spells [] x ↔ x = [] := fun x => List.forall₂_nil_left_iff
    obtain ⟨parts, rest⟩ := r
    simp only [List.map_nil, row, List.foldr_nil, readings_nothing, List.mem_singleton, Reading.mk.injEq,
      hnil, exists_eq_left, List.nil_append, eq_comm (a := s)]
  | cons letter letters ih =>
    have hrow : row ((letter :: letters).map fun letter => char (isLetter letter)) =
        both (char (isLetter letter)) (row (letters.map fun letter => char (isLetter letter))) := rfl
    rw [hrow, mem_readings_both]
    constructor
    · rintro ⟨t, ht, u, hu, rfl⟩
      obtain ⟨c, v, rfl, hc, rfl⟩ := mem_readings_char.1 ht
      obtain ⟨hparts, x, hx, hv⟩ := ih.1 hu
      exact ⟨hparts, c :: x, List.Forall₂.cons hc hx, congrArg (c :: ·) hv⟩
    · rintro ⟨hparts, x, hx, rfl⟩
      obtain ⟨c, y, hc, hy, rfl⟩ := hx.exists_cons
      refine ⟨{ rest := y ++ r.rest }, mem_readings_char.2 ⟨c, _, rfl, hc, rfl⟩, r,
        ih.2 ⟨hparts, y, hy, rfl⟩, rfl⟩

theorem mem_readings_word {w : String} {s : List Char} {r : Reading} :
    r ∈ (word w).readings s ↔ r.parts = [] ∧ ∃ x, Spells w.toList x ∧ s = x ++ r.rest :=
  mem_readings_letters

/-- A text has a word as its pattern if it spells it. -/
theorem reads_word {w : String} {x : List Char} : (word w).Reads x ↔ Spells w.toList x := by
  constructor
  · rintro ⟨r, hr, hrest⟩
    obtain ⟨-, y, hy, rfl⟩ := mem_readings_word.1 hr
    rwa [hrest, List.append_nil]
  · intro hx
    exact ⟨{ rest := [] }, mem_readings_word.2 ⟨rfl, x, hx, (List.append_nil x).symm⟩, rfl⟩

/-- The word of a judgement is one of the two that have an alternative. -/
theorem marks_judgement : Marks judgement .severity
    fun w => (word "error").Reads w ∨ (word "warning").Reads w := by
  have hword : Marks (part .severity (either (word "error") (word "warning"))) .severity
      fun w => (word "error").Reads w ∨ (word "warning").Reads w := by
    refine marks_part (by decide) fun s r hr => ?_
    have htake : ∀ {word : String}, r ∈ (Pattern.word word).readings s →
        (Pattern.word word).Reads (s.take (s.length - r.rest.length)) := by
      intro word hr
      obtain ⟨-, x, hx, hs⟩ := mem_readings_word.1 hr
      rw [take_sub_length hs]
      exact reads_word.2 hx
    exact (List.mem_append.1 hr).imp htake htake
  exact hword.row [star Text.isBlank] [only ':', message] (by decide)

/-- So is that of the shapes that have a judgement. -/
theorem marks_shape {shape : Shape} (h : shape = .located ∨ shape = .called) :
    Marks shape.pattern .severity
      fun w => (word "error").Reads w ∨ (word "warning").Reads w := by
  rcases h with rfl | rfl
  · exact marks_judgement.row [plus fun c => c ≠ ':', only ':', number .line, only ':',
      number .column, only ':'] [] (by decide)
  · exact marks_judgement.row [plus fun c => c ≠ '(', only '(', number .line, only ')', only ':'] []
      (by decide)

end Pattern

/-! ## Spellings -/

/-- An `i` that is neither the plain small nor the plain capital one. -/
def IsForeign (c : Char) : Prop := c = '\u0130' ∨ c = '\u0131'

instance : DecidablePred IsForeign := fun _ => inferInstanceAs (Decidable (_ ∨ _))

theorem toLower_eq_iff {letter c : Char} (h : isLetter letter c = true) (hletter : ¬ IsForeign letter) :
    c.toLower = letter ↔ ¬ IsForeign c := by
  constructor
  · rintro rfl hc
    refine hletter ?_
    rcases hc with rfl | rfl
    · exact .inl (by decide)
    · exact .inr (by decide)
  · intro hc
    rcases not_or.1 hc with ⟨hcapital, hsmall⟩
    simpa [isLetter, hcapital, hsmall] using h

/-- A spelling of a word is the word in small letters unless it has one of the two letters. -/
theorem map_toLower_eq_iff {word w : List Char} (h : Spells word w)
    (hword : ∀ letter ∈ word, ¬ IsForeign letter) :
    w.map Char.toLower = word ↔ ∀ c ∈ w, ¬ IsForeign c := by
  induction h with
  | nil => simp
  | @cons letter c word w hc _ ih =>
    obtain ⟨hletter, hword⟩ := List.forall_mem_cons.1 hword
    rw [List.map_cons, List.cons.injEq, List.forall_mem_cons, toLower_eq_iff hc hletter, ih hword]

theorem severityOf_eq_warning_iff {w : List Char} (h : Spells "warning".toList w) :
    severityOf (some w) = .warning ↔ ∀ c ∈ w, ¬ IsForeign c := by
  rw [← map_toLower_eq_iff h (by simp [IsForeign])]
  simp only [severityOf, Option.any_some, decide_eq_true_eq]
  split
  · next hw => exact iff_of_true rfl hw
  · next hw => exact iff_of_false (by decide) hw

theorem Spells.not_error_of_warning {w : List Char} (h : Spells "warning".toList w) :
    ¬ Spells "error".toList w := by
  intro h'
  have hlength := h.length_eq.symm.trans h'.length_eq
  exact absurd hlength (by decide)

theorem severity_of_diagnostic? {o : Occurrence} {d : Diagnostic} (h : o.diagnostic? = some d) :
    d.severity = o.severity := by
  unfold Occurrence.diagnostic? at h
  dsimp only at h
  split at h
  · split at h
    · exact nomatch h
    · obtain rfl := Option.some.inj h
      rfl
  · exact nomatch h

/-- A diagnostic of a shape is what the first reading of its pattern says. -/
theorem exists_reading_of_ofLine? {shape : Shape} {line : String} {d : Diagnostic}
    (h : ofLine? [shape] line = some d) :
    ∃ r, shape.pattern.search line.toList = some r ∧
      d.severity = severityOf (r.parts.get? .severity) := by
  rw [ofLine?, List.findSome?_singleton, find_eq_search, Option.bind_map] at h
  obtain ⟨r, hr, hd⟩ := Option.bind_eq_some_iff.1 h
  exact ⟨r, hr, severity_of_diagnostic? hd⟩

/-- The severity of a diagnostic in one of the two shapes that name one: the word is that of exactly
one alternative of the pattern. Where it is the one for errors, the diagnostic is an error. Where it
is the one for warnings, it is a warning if and only if no `i` of the word is the dotted capital or
the dotless small one. -/
theorem severity_of_alternative {shape : Shape} (hshape : shape = .located ∨ shape = .called)
    {line : String} {d : Diagnostic} (h : ofLine? [shape] line = some d) :
    ∃ r w, shape.pattern.search line.toList = some r ∧ r.parts.get? .severity = some w ∧
      ((Pattern.word "error").Reads w ∧ ¬ (Pattern.word "warning").Reads w ∧ d.severity = .error ∨
        (Pattern.word "warning").Reads w ∧ ¬ (Pattern.word "error").Reads w ∧
          (d.severity = .warning ↔ '\u0130' ∉ w ∧ '\u0131' ∉ w)) := by
  obtain ⟨r, hr, hd⟩ := exists_reading_of_ofLine? h
  obtain ⟨s, hs⟩ := Pattern.exists_mem_readings_of_search hr
  obtain ⟨w, hw, hreads⟩ := Pattern.marks_shape hshape s r hs
  refine ⟨r, w, hr, hw, ?_⟩
  simp only [Pattern.reads_word] at hreads ⊢
  rw [hd, hw]
  rcases hreads with herror | hwarning
  · refine .inl ⟨herror, fun hwarning => hwarning.not_error_of_warning herror, ?_⟩
    refine severityOf_of_length_ne ?_
    rw [herror.length_eq]
    decide
  · refine .inr ⟨hwarning, hwarning.not_error_of_warning, ?_⟩
    simp only [severityOf_eq_warning_iff hwarning, IsForeign, not_or, imp_and, forall_and,
      List.forall_mem_ne']

/-- A warning in capitals is a warning. -/
theorem severity_of_capitals :
    ∃ d r w, ofLine? [.called] "a(1): WARNING: m" = some d ∧ d.severity = .warning ∧
      Shape.called.pattern.search "a(1): WARNING: m".toList = some r ∧
      r.parts.get? .severity = some w ∧ (Pattern.word "warning").Reads w ∧
      '\u0130' ∉ w ∧ '\u0131' ∉ w := by
  have h : ofLine? [.called] "a(1): WARNING: m" =
      some { line := 0, column := 0, severity := .warning, message := "m" } := by decide +kernel
  obtain ⟨r, w, hr, hw, ⟨-, -, herror⟩ | ⟨hreads, -, hiff⟩⟩ := severity_of_alternative (.inr rfl) h
  · exact nomatch herror
  · exact ⟨_, r, w, h, rfl, hr, hw, hreads, hiff.1 rfl⟩

/-- Where the `i` is the dotless or the dotted one, the alternative for warnings makes an error. -/
theorem error_of_foreign_warning :
    (∃ r, Shape.located.pattern.search "a:1:1: warn\u0131ng: m".toList = some r ∧
      r.parts.get? .severity = some "warn\u0131ng".toList ∧
      (Pattern.word "warning").Reads "warn\u0131ng".toList ∧
      ofLine? [.located] "a:1:1: warn\u0131ng: m" =
        some { line := 0, column := 1, severity := .error, message := "m" }) ∧
    ∃ r, Shape.called.pattern.search "a(1): WARN\u0130NG: m".toList = some r ∧
      r.parts.get? .severity = some "WARN\u0130NG".toList ∧
      (Pattern.word "warning").Reads "WARN\u0130NG".toList ∧
      ofLine? [.called] "a(1): WARN\u0130NG: m" =
        some { line := 0, column := 0, severity := .error, message := "m" } := by
  refine ⟨⟨_, Option.eq_some_of_isSome (by decide +kernel), by decide +kernel,
    ⟨_, List.head_mem (by decide +kernel), by decide +kernel⟩, by decide +kernel⟩, ?_⟩
  exact ⟨_, Option.eq_some_of_isSome (by decide +kernel), by decide +kernel,
    ⟨_, List.head_mem (by decide +kernel), by decide +kernel⟩, by decide +kernel⟩

end Workbench.Diagnostic
