import Workbench.Proofs.Diagnostic.Head
import Workbench.Proofs.Number.Decimal

/-!
# Printed messages are read back

Compilers print a message in one of several forms. A printed message with a sensible place and text
is read back exactly, although every shape is looked for everywhere in the line:

* `Printed` : a message and the form in which it is printed, `Printed.text` the line;
* `Printed.Clear` : the place has not too many digits, the message is a line of its own without
  blanks around it, and the file name and the message have nothing that another shape could take for
  its own;
* `ofLine?_text` : the line of a clear message gives its diagnostic.
-/

namespace Workbench.Diagnostic
open Text (isBlank isDigit trim)

/-- The form of a printed message, with what it says besides the line and the message. -/
inductive Form
  | located (file : String) (column : Nat) (severity : Severity) (word : String)
  | line
  | errorAt (column : Option Nat)
  | called (file : String) (severity : Severity) (word : String)
  | errorLine

/-- A message as it is printed. Lines count from one. -/
structure Printed where
  form : Form
  line : Nat
  message : String

namespace Printed

/-- The line that is printed. -/
def text (p : Printed) : String :=
  match p.form with
  | .located file column _ word => s!"{file}:{p.line}:{column}: {word}: {p.message}"
  | .line => s!"line {p.line}: {p.message}"
  | .errorAt none => s!"error at line {p.line}: {p.message}"
  | .errorAt (some column) => s!"error at line {p.line}, column {column}: {p.message}"
  | .called file _ word => s!"{file}({p.line}): {word}: {p.message}"
  | .errorLine => s!"error: line {p.line}: {p.message}"

/-- The diagnostic that the message stands for. -/
def diagnostic (p : Printed) : Diagnostic where
  line := p.line - 1
  column := match p.form with
    | .located _ column _ _ | .errorAt (some column) => column
    | _ => 0
  severity := match p.form with
    | .located _ _ severity _ | .called _ severity _ => severity
    | _ => .error
  message := p.message

end Printed

/-- The word is the name of the severity, each letter in upper or lower case. -/
def Names (word : String) (severity : Severity) : Prop :=
  word.toList.map Char.toLower = severity.name.toList

/-- The form leaves no doubt about a message. A drive letter may stand before a colon in a file
name, a digit may not stand behind one. -/
def Form.Suits (message : String) : Form → Prop
  | .located file column severity word =>
    Names word severity ∧ column < Number.digitBound ∧ file ≠ "" ∧ OneLine file.toList ∧
      file.toList.getLast? ≠ some ':' ∧
      ∀ u c v, file.toList = u ++ ':' :: c :: v → isDigit c = false
  | .line => ':' ∉ message.toList
  | .errorAt none => ':' ∉ message.toList
  | .errorAt (some column) => ':' ∉ message.toList ∧ column < Number.digitBound
  | .called file severity word =>
    ':' ∉ message.toList ∧ Names word severity ∧ file ≠ "" ∧ OneLine file.toList ∧
      '(' ∉ file.toList ∧ ':' ∉ file.toList
  | .errorLine => ':' ∉ message.toList

/-- The message can be read back from its line. -/
structure Printed.Clear (p : Printed) : Prop where
  line_pos : 1 ≤ p.line
  line_lt : p.line < Number.digitBound
  message_ne : p.message ≠ ""
  message_oneLine : OneLine p.message.toList
  message_trim : trim p.message.toList = p.message.toList
  suits : p.form.Suits p.message

/-! ## What is written -/

namespace Printed

/-- The fields of a printed message. -/
def fields (p : Printed) : Fields where
  line := p.line.repr.toList
  column := match p.form with
    | .located _ column _ _ | .errorAt (some column) => some column.repr.toList
    | _ => none
  word := match p.form with
    | .located _ _ _ word | .called _ _ word => some word.toList
    | _ => none
  rest := ' ' :: p.message.toList

/-- The word `line` with its number. -/
def lineText (p : Printed) : List Char := "line".toList ++ ([' '] ++ p.line.repr.toList)

/-- The line as a list of characters, cut where the shapes cut it. -/
theorem toList_text (p : Printed) :
    p.text.toList = match p.form with
      | .located file column _ word =>
        file.toList ++ ':' :: (p.line.repr.toList ++ ':' :: (column.repr.toList ++ ':' ::
          ([' '] ++ (word.toList ++ ':' :: p.fields.rest))))
      | .line => p.lineText ++ ':' :: p.fields.rest
      | .errorAt none =>
        "error".toList ++ ([' '] ++ ("at".toList ++ ([' '] ++ (p.lineText ++ ':' :: p.fields.rest))))
      | .errorAt (some column) =>
        "error".toList ++ ([' '] ++ ("at".toList ++ ([' '] ++ (p.lineText ++
          ((',' :: ([' '] ++ ("column".toList ++ ([' '] ++ column.repr.toList)))) ++
            ':' :: p.fields.rest)))))
      | .called file _ word =>
        file.toList ++ '(' :: (p.line.repr.toList ++ ')' :: ':' ::
          ([' '] ++ (word.toList ++ ':' :: p.fields.rest)))
      | .errorLine => "error".toList ++ ':' :: ([' '] ++ (p.lineText ++ ':' :: p.fields.rest)) := by
  obtain ⟨form, line, message⟩ := p
  cases form with
  | located file column severity word => simp [text, fields, toString]
  | line => simp [text, fields, lineText, toString]
  | errorAt column => cases column <;> simp [text, fields, lineText, toString]
  | called file severity word => simp [text, fields, toString]
  | errorLine => simp [text, fields, lineText, toString]

end Printed

/-! ## Where a shape is first -/

/-- What a shape begins with, a name before it left out. -/
def Shape.initial : Shape → Char → Bool
  | .located => fun c => c = ':'
  | .line => isLetter 'l'
  | .errorAt => isLetter 'e'
  | .called => fun c => c = '('
  | .errorLine => isLetter 'e'

theorem Shape.initial_separator {shape : Shape} {c : Char} (h : c ∈ shape.separator?) :
    shape.initial c = true := by
  cases shape with
  | located | called =>
    obtain rfl := Option.some.inj h
    rfl
  | line | errorAt | errorLine => exact absurd h (Option.not_mem_none c)

theorem Writes.exists_cons {shape : Shape} {s : List Char} {f : Fields} (h : Writes shape s f) :
    ∃ c t, s = c :: t ∧ shape.initial c = true := by
  have hword : ∀ {a : Char} {u w : List Char} (t : List Char), Spells (a :: u) w →
      ∃ c v, w ++ t = c :: v ∧ isLetter a c = true := by
    intro a u w t hw
    obtain ⟨c, x, hc, -, rfl⟩ := hw.exists_cons
    exact ⟨c, x ++ t, rfl, hc⟩
  cases h with
  | located | called => exact ⟨_, _, rfl, rfl⟩
  | line hline =>
    obtain ⟨w, gap, hw, -, -, rfl⟩ := hline
    rw [List.append_assoc]
    exact hword (a := 'l') (u := "ine".toList) _ hw
  | errorAt hw | errorAtColumn hw | errorLine hw =>
    exact hword (a := 'e') (u := "rror".toList) _ hw

/-- A name that does not end in the separator stands before what follows it. -/
theorem exists_named {u : List Char} {separator : Char} (hne : u ≠ [])
    (hlast : u.getLast? ≠ some separator) (s : List Char) :
    ∃ j c, u.length = j + 1 ∧ (u ++ s)[j]? = some c ∧ c ≠ separator := by
  have hlen : u.length = u.length - 1 + 1 := by
    have := List.length_pos_of_ne_nil hne
    omega
  rw [List.getLast?_eq_some_getLast hne] at hlast
  refine ⟨u.length - 1, u.getLast hne, hlen, ?_, fun he => hlast (congrArg some he)⟩
  rw [List.getElem?_append_left (by omega), ← List.getLast?_eq_getElem?,
    List.getLast?_eq_some_getLast hne]

/-- A shape is first behind a text in which it cannot begin. -/
theorem firstOccurs_append {shape : Shape} {u s : List Char} {f : Fields} (h : Writes shape s f)
    (hu : ∀ c ∈ u, shape.initial c = false) (hne : shape.separator?.isSome = true → u ≠ []) :
    shape.FirstOccurs (u ++ s) u.length f := by
  refine ⟨⟨by rwa [List.drop_left], fun separator hs => ?_⟩, fun j hj g hg => ?_⟩
  · refine exists_named (hne (Option.isSome_of_mem hs)) (fun he => ?_) s
    have hfalse := hu separator (List.mem_of_getLast? he)
    rw [Shape.initial_separator hs] at hfalse
    exact Bool.noConfusion hfalse
  · obtain ⟨c, t, hct, hc⟩ := hg.writes.exists_cons
    rw [List.drop_append_of_le_length (Nat.le_of_lt hj), List.drop_eq_getElem_cons hj] at hct
    rw [← (List.cons.inj hct).1, hu _ (List.getElem_mem hj)] at hc
    exact Bool.noConfusion hc

theorem Writes.exists_colon_digit {s : List Char} {f : Fields} (h : Writes .located s f) :
    ∃ d t, s = ':' :: d :: t ∧ isDigit d = true := by
  cases h with
  | @located line column gap word rest hline =>
    cases line with
    | nil => exact absurd rfl hline.1
    | cons d line => exact ⟨d, _, rfl, hline.2 d List.mem_cons_self⟩

/-! ## Where a shape is not -/

theorem four_le_count_of_occursAt {s : List Char} {i : Nat} {f : Fields}
    (h : Shape.located.OccursAt s i f) : 4 ≤ s.count ':' := by
  have hle : (s.drop i).count ':' ≤ s.count ':' := (List.drop_sublist i s).count_le ':'
  rw [h.writes.count_colon, Shape.colons] at hle
  omega

theorem Digits.exists_concat {ds : List Char} (h : Digits ds) :
    ∃ es d, ds = es ++ [d] ∧ isDigit d = true :=
  ⟨ds.dropLast, ds.getLast h.1, (List.dropLast_append_getLast h.1).symm,
    h.2 _ (List.getLast_mem h.1)⟩

/-- A line number ends in a digit, and a colon follows it or the column. -/
theorem Writes.exists_digit_colon {shape : Shape} {s : List Char} {f : Fields}
    (h : Writes shape s f) (hs : shape = .line ∨ shape = .errorAt) :
    ∃ u d t, s = u ++ d :: ':' :: t ∧ isDigit d = true := by
  cases h with
  | located | called | errorLine => rcases hs with hs | hs <;> exact absurd hs (by decide)
  | @line x line rest hline =>
    obtain ⟨w, gap, -, -, hd, rfl⟩ := hline
    obtain ⟨es, d, rfl, hdig⟩ := hd.exists_concat
    exact ⟨w ++ (gap ++ es), d, rest, by simp, hdig⟩
  | @errorAt w gap at_ gap' x line rest _ _ _ _ hline =>
    obtain ⟨w', gap'', -, -, hd, rfl⟩ := hline
    obtain ⟨es, d, rfl, hdig⟩ := hd.exists_concat
    exact ⟨w ++ gap ++ at_ ++ gap' ++ w' ++ gap'' ++ es, d, rest, by simp, hdig⟩
  | @errorAtColumn w gap at_ gap' x line y column rest _ _ _ _ hline hcolumn =>
    obtain ⟨g, w', g', -, -, -, hd, rfl⟩ := hcolumn
    obtain ⟨es, d, rfl, hdig⟩ := hd.exists_concat
    exact ⟨w ++ gap ++ at_ ++ gap' ++ x ++ ',' :: (g ++ w' ++ g' ++ es), d, rest, by simp, hdig⟩

theorem gap_blank : Gap [' '] := ⟨by decide, List.all_eq_true.1 (by decide)⟩

/-- What stands before a gap and a number at the end of a text. -/
theorem dropWhile_reverse_append {u gap ds : List Char}
    (hu : Text.Stops isBlank u.reverse) (hg : Gap gap) (hd : ∀ c ∈ ds, isDigit c = true) :
    ((u ++ (gap ++ ds)).reverse.dropWhile isDigit).dropWhile isBlank = u.reverse := by
  have hstop : Text.Stops isDigit (gap.reverse ++ u.reverse) := by
    cases hr : gap.reverse with
    | nil => exact absurd (List.reverse_eq_nil_iff.1 hr) hg.1
    | cons c t =>
      have hc : c ∈ gap := List.mem_reverse.1 (by rw [hr]; exact List.mem_cons_self)
      exact Text.stops_cons.2 (Text.isDigit_eq_false_of_isBlank (hg.2 c hc))
  rw [List.reverse_append, List.reverse_append, List.append_assoc,
    Text.dropWhile_append_of_stops (fun c hc => hd c (List.mem_reverse.1 hc)) hstop,
    Text.dropWhile_append_of_stops (fun c hc => hg.2 c (List.mem_reverse.1 hc)) hu]

/-- The number of a column is not taken for the number of a line. -/
theorem not_isLineNumber_of_columnNumber {a x m ds : List Char} (hm : Digits m)
    (hx : IsLineNumber x ds) (y : List Char) :
    y ++ x ≠ a ++ ("column".toList ++ ([' '] ++ m)) := by
  intro h
  obtain ⟨w, gap, hw, hg, hd, rfl⟩ := hx
  obtain ⟨l, w₁, -, h₁, rfl⟩ := Spells.exists_cons (a := 'l') (u := "ine".toList) hw
  obtain ⟨i, w₂, -, h₂, rfl⟩ := Spells.exists_cons (a := 'i') (u := "ne".toList) h₁
  obtain ⟨n, w₃, -, h₃, rfl⟩ := Spells.exists_cons (a := 'n') (u := "e".toList) h₂
  obtain ⟨e, w₄, he, h₄, rfl⟩ := Spells.exists_cons (a := 'e') (u := []) h₃
  obtain rfl : w₄ = [] := List.forall₂_nil_left_iff.1 h₄
  -- the last letter before the number would be that of both words
  have hstop : Text.Stops isBlank (y ++ [l, i, n, e]).reverse := by
    rw [List.reverse_append]
    refine Text.stops_cons.2 ?_
    by_contra hb
    rw [isLetter_eq_false_of_isBlank (by decide) (by simpa using hb)] at he
    exact Bool.noConfusion he
  have hstop' : Text.Stops isBlank (a ++ "column".toList).reverse := by
    rw [List.reverse_append]
    exact Text.stops_cons.2 (by decide)
  rw [← List.append_assoc, ← List.append_assoc a] at h
  have hrev := dropWhile_reverse_append hstop hg hd.2
  rw [h, dropWhile_reverse_append hstop' gap_blank hm.2, List.reverse_append,
    List.reverse_append] at hrev
  obtain rfl : 'n' = e := (List.cons.inj hrev).1
  exact absurd he (by decide)

/-! ## Clear messages -/

namespace Printed.Clear
variable {p : Printed}

theorem digits_repr (n : Nat) : Digits n.repr.toList := by
  refine ⟨?_, fun c hc => Number.isDigit_of_mem_repr hc⟩
  rw [Nat.toList_repr]
  exact Nat.toDigits_ne_nil

theorem isLineNumber (p : Printed) : IsLineNumber p.lineText p.line.repr.toList :=
  ⟨"line".toList, [' '], spells_of_map_toLower (by decide), gap_blank, digits_repr p.line, rfl⟩

theorem isSeverity {word : String} {severity : Severity} (h : Names word severity) :
    IsSeverity word.toList := by
  cases severity with
  | error => exact Or.inl (spells_of_map_toLower h)
  | warning => exact Or.inr (spells_of_map_toLower h)

theorem severityOf_word {word : String} {severity : Severity} (h : Names word severity) :
    severityOf (some word.toList) = severity := by
  have hw : word.toList.map Char.toLower = severity.name.toList := h
  unfold severityOf
  rw [Option.any_some, hw]
  cases severity <;> rfl

theorem trim_cons_blank (s : List Char) : trim (' ' :: s) = trim s := by
  unfold trim Text.trimStart
  rw [List.dropWhile_cons_of_pos (by decide)]

theorem length_column_le (h : p.Clear) :
    ¬ ∃ column ∈ p.fields.column, Number.digitLimit < column.length := by
  rintro ⟨column, hc, hlen⟩
  obtain ⟨form, line, message⟩ := p
  have hsuits := h.suits
  cases form with
  | located file n severity word =>
    obtain rfl := Option.some.inj hc
    exact absurd (Number.length_repr_le_digitLimit.2 hsuits.2.1) (Nat.not_le.2 hlen)
  | errorAt n =>
    cases n with
    | none => exact absurd hc (Option.not_mem_none column)
    | some n =>
      obtain rfl := Option.some.inj hc
      exact absurd (Number.length_repr_le_digitLimit.2 hsuits.2) (Nat.not_le.2 hlen)
  | line | called | errorLine => exact absurd hc (Option.not_mem_none column)

/-- The fields of a clear message give its diagnostic. -/
theorem fields_diagnostic? (h : p.Clear) : p.fields.diagnostic? = some p.diagnostic := by
  have hvalue : Text.value p.fields.line = p.line := Number.value_repr p.line
  have htrim : trim p.fields.rest = p.message.toList := by
    rw [fields, trim_cons_blank, h.message_trim]
  have hgood : ¬ (Text.value p.fields.line = 0 ∨ Number.digitLimit < p.fields.line.length ∨
      (∃ column ∈ p.fields.column, Number.digitLimit < column.length) ∨
      p.fields.rest.all isBlank = true) := by
    rintro (hzero | hlong | hcolumn | hblank)
    · rw [hvalue] at hzero
      exact absurd h.line_pos (by omega)
    · exact absurd (Number.length_repr_le_digitLimit.2 h.line_lt) (Nat.not_le.2 hlong)
    · exact length_column_le h hcolumn
    · rw [List.all_eq_true, ← Text.trim_eq_nil_iff, htrim, String.toList_eq_nil_iff] at hblank
      exact h.message_ne hblank
  rw [Fields.diagnostic?, if_neg hgood, hvalue, htrim, String.ofList_toList, diagnostic]
  obtain ⟨form, line, message⟩ := p
  have hsuits := h.suits
  cases form with
  | located file column severity word =>
    simp only [fields, severityOf_word hsuits.1, Option.map_some, Option.getD_some,
      Number.value_repr]
  | line => rfl
  | errorAt column =>
    cases column with
    | none => rfl
    | some column => simp only [fields, Option.map_some, Option.getD_some, Number.value_repr]; rfl
  | called file severity word =>
    simp only [fields, severityOf_word hsuits.2.1]
    rfl
  | errorLine => rfl

theorem not_mem_repr {c : Char} (h : isDigit c = false) (n : Nat) : c ∉ n.repr.toList := by
  intro hc
  rw [Number.isDigit_of_mem_repr hc] at h
  exact Bool.noConfusion h

theorem toLower_mem_name {word : String} {severity : Severity} {c : Char}
    (h : Names word severity) (hc : c ∈ word.toList) : c.toLower ∈ severity.name.toList := by
  have hw : word.toList.map Char.toLower = severity.name.toList := h
  rw [← hw]
  exact List.mem_map_of_mem hc

theorem not_mem_word {word : String} {severity : Severity} {c : Char} (h : Names word severity)
    (hc : c.toLower ∉ "errorwarning".toList) : c ∉ word.toList := by
  intro hm
  have hl := toLower_mem_name h hm
  cases severity with
  | error => exact hc (List.mem_append_left "warning".toList hl)
  | warning => exact hc (List.mem_append_right "error".toList hl)

theorem isDigit_word {word : String} {severity : Severity} {c : Char} (h : Names word severity)
    (hc : c ∈ word.toList) : isDigit c = false := by
  by_contra hd
  rw [Bool.not_eq_false] at hd
  have hl := toLower_mem_name h hc
  rw [Text.toLower_of_isDigit hd] at hl
  have hmem : c ∈ "errorwarning".toList := by
    cases severity with
    | error => exact List.mem_append_left "warning".toList hl
    | warning => exact List.mem_append_right "error".toList hl
  have hc : isDigit c = false := Text.eq_false_of_all (by decide) c hmem
  rw [hd] at hc
  exact Bool.noConfusion hc

theorem not_mem_lineText {c : Char} (hd : isDigit c = false) (hl : c ∉ "line ".toList) :
    c ∉ p.lineText := by
  have hn := not_mem_repr hd p.line
  simp only [lineText, List.mem_append, List.mem_singleton]
  rintro (h | h | h)
  · exact hl (List.mem_append_left [' '] h)
  · exact hl (by rw [h]; decide)
  · exact hn h

theorem oneLine_text (h : p.Clear) : OneLine p.text.toList := by
  have hm : '\n' ∉ p.message.toList := h.message_oneLine
  have hr : ∀ n : Nat, '\n' ∉ n.repr.toList := not_mem_repr (by decide)
  have hl : '\n' ∉ p.lineText := not_mem_lineText (by decide) (by decide)
  have hw : ∀ {word : String} {severity : Severity}, Names word severity → '\n' ∉ word.toList :=
    fun hn => not_mem_word hn (by decide)
  obtain ⟨form, line, message⟩ := p
  have hsuits := h.suits
  unfold OneLine
  rw [toList_text]
  cases form with
  | located file column severity word =>
    have hf : '\n' ∉ file.toList := hsuits.2.2.2.1
    simp [fields, hf, hr, hw hsuits.1, hm, -Nat.toList_repr]
  | line => simp [fields, hl, hm]
  | errorAt column => cases column <;> simp [fields, hl, hr, hm, -Nat.toList_repr]
  | called file severity word =>
    have hf : '\n' ∉ file.toList := hsuits.2.2.2.1
    simp [fields, hf, hr, hw hsuits.2.1, hm, -Nat.toList_repr]
  | errorLine => simp [fields, hl, hm]

/-! ## Where the shape of a message is -/

theorem rest_ne_nil (p : Printed) : p.fields.rest ≠ [] := List.cons_ne_nil _ _

/-- A file name has no colon before a digit, so the place behind it is the first one. -/
theorem firstOccurs_located {file word : String} {column line : Nat} {severity : Severity}
    {message : String} (h : Printed.Clear ⟨.located file column severity word, line, message⟩) :
    Shape.located.FirstOccurs (Printed.text ⟨.located file column severity word, line, message⟩).toList
      file.toList.length (Printed.fields ⟨.located file column severity word, line, message⟩) := by
  obtain ⟨hword, -, hne, -, hend, hdigit⟩ := h.suits
  have hlist : file.toList ≠ [] := fun he => hne (String.toList_eq_nil_iff.1 he)
  rw [toList_text]
  refine ⟨⟨?_, fun separator hs => ?_⟩, fun j hj g hg => ?_⟩
  · rw [List.drop_left]
    exact .located (digits_repr line) (digits_repr column) gap_blank.2 (isSeverity hword)
      (rest_ne_nil _)
  · obtain rfl : ':' = separator := Option.some.inj hs
    exact exists_named hlist hend _
  · obtain ⟨d, t, hw, hd⟩ := hg.writes.exists_colon_digit
    rw [List.drop_append_of_le_length (Nat.le_of_lt hj), List.drop_eq_getElem_cons hj] at hw
    obtain ⟨hcolon, hw⟩ := List.cons.inj hw
    have hfile : file.toList = file.toList.take j ++ ':' :: file.toList.drop (j + 1) := by
      rw [← hcolon, ← List.drop_eq_getElem_cons hj, List.take_append_drop]
    cases hv : file.toList.drop (j + 1) with
    | nil =>
      rw [hv] at hfile
      exact hend (by rw [hfile, List.getLast?_concat])
    | cons c v =>
      rw [hv] at hfile hw
      obtain rfl : c = d := (List.cons.inj hw).1
      rw [hdigit _ c v hfile] at hd
      exact Bool.noConfusion hd

theorem writes_line (p : Printed) :
    Writes .line (p.lineText ++ ':' :: p.fields.rest)
      { line := p.line.repr.toList, rest := p.fields.rest } :=
  .line (isLineNumber p) (rest_ne_nil p)

theorem firstOccurs_line (line : Nat) (message : String) :
    Shape.line.FirstOccurs (Printed.text ⟨.line, line, message⟩).toList 0
      (Printed.fields ⟨.line, line, message⟩) := by
  rw [toList_text]
  exact firstOccurs_append (u := []) (writes_line _) (by simp) (by decide)

/-- The words before the line belong to a later shape. -/
theorem firstOccurs_line_of_errorAt (line : Nat) (message : String) :
    Shape.line.FirstOccurs (Printed.text ⟨.errorAt none, line, message⟩).toList 9
      (Printed.fields ⟨.errorAt none, line, message⟩) := by
  rw [toList_text]
  exact firstOccurs_append (u := "error at ".toList) (writes_line _)
    (Text.eq_false_of_all (by decide)) (by decide)

theorem firstOccurs_line_of_errorLine (line : Nat) (message : String) :
    Shape.line.FirstOccurs (Printed.text ⟨.errorLine, line, message⟩).toList 7
      (Printed.fields ⟨.errorLine, line, message⟩) := by
  rw [toList_text]
  exact firstOccurs_append (u := "error: ".toList) (writes_line _)
    (Text.eq_false_of_all (by decide)) (by decide)

theorem firstOccurs_errorAt (column line : Nat) (message : String) :
    Shape.errorAt.FirstOccurs (Printed.text ⟨.errorAt (some column), line, message⟩).toList 0
      (Printed.fields ⟨.errorAt (some column), line, message⟩) := by
  rw [toList_text]
  refine firstOccurs_append (u := []) ?_ (by simp) (by decide)
  have herror : Spells "error".toList "error".toList := spells_of_map_toLower (by decide)
  have hat : Spells "at".toList "at".toList := spells_of_map_toLower (by decide)
  have hcolumn : Spells "column".toList "column".toList := spells_of_map_toLower (by decide)
  exact .errorAtColumn herror gap_blank hat gap_blank (isLineNumber _)
    ⟨[' '], _, [' '], gap_blank.2, hcolumn, gap_blank, digits_repr column, rfl⟩ (rest_ne_nil _)

theorem firstOccurs_called {file word : String} {line : Nat} {severity : Severity} {message : String}
    (h : Printed.Clear ⟨.called file severity word, line, message⟩) :
    Shape.called.FirstOccurs (Printed.text ⟨.called file severity word, line, message⟩).toList
      file.toList.length (Printed.fields ⟨.called file severity word, line, message⟩) := by
  obtain ⟨-, hword, hne, -, hopen, -⟩ := h.suits
  rw [toList_text]
  refine firstOccurs_append ?_ (fun c hc => decide_eq_false fun he => hopen (he ▸ hc))
    (fun _ he => hne (String.toList_eq_nil_iff.1 he))
  exact .called (digits_repr line) gap_blank.2 (isSeverity hword) (rest_ne_nil _)

/-! ## Where other shapes are not -/

theorem not_occursAt_located {s : List Char} (h : s.count ':' < 4) (i : Nat) (f : Fields) :
    ¬ Shape.located.OccursAt s i f :=
  fun ho => absurd (four_le_count_of_occursAt ho) (Nat.not_le.2 h)

theorem not_mem_rest {p : Printed} (hm : ':' ∉ p.message.toList) : ':' ∉ p.fields.rest := by
  intro h
  rcases List.mem_cons.1 h with h | h
  · exact absurd h (by decide)
  · exact hm h

/-- Only the first one of the shapes has four colons. -/
theorem count_colon_text (h : p.Clear)
    (hform : ∀ file column severity word, p.form ≠ .located file column severity word) :
    p.text.toList.count ':' < 4 := by
  have hr : ∀ n : Nat, n.repr.toList.count ':' = 0 := fun n =>
    List.count_eq_zero.2 (not_mem_repr (by decide) n)
  have hl : p.lineText.count ':' = 0 :=
    List.count_eq_zero.2 (not_mem_lineText (by decide) (by decide))
  have hrest : ':' ∉ p.message.toList → p.fields.rest.count ':' = 0 := fun hm =>
    List.count_eq_zero.2 (not_mem_rest hm)
  obtain ⟨form, line, message⟩ := p
  have hsuits := h.suits
  rw [toList_text]
  cases form with
  | located file column severity word => exact absurd rfl (hform file column severity word)
  | line => simp [hl, hrest hsuits]
  | errorAt column =>
    cases column with
    | none => simp [hl, hrest hsuits]
    | some column => simp [hl, hr, hrest hsuits.1, -Nat.toList_repr]
  | called file severity word =>
    have hf : file.toList.count ':' = 0 := List.count_eq_zero.2 hsuits.2.2.2.2.2
    have hw : word.toList.count ':' = 0 :=
      List.count_eq_zero.2 (not_mem_word hsuits.2.1 (by decide))
    simp [hf, hw, hr, hrest hsuits.1, -Nat.toList_repr]
  | errorLine => simp [hl, hrest hsuits]

/-- In a line with a column, the colon does not follow the number of the line. -/
theorem not_occursAt_line_of_errorAt {column line : Nat} {message : String}
    (hm : ':' ∉ message.toList) (i : Nat) (f : Fields) :
    ¬ Shape.line.OccursAt (Printed.text ⟨.errorAt (some column), line, message⟩).toList i f := by
  intro ho
  let q : Printed := ⟨.errorAt (some column), line, message⟩
  let a : List Char := "error at ".toList ++ (q.lineText ++ ", ".toList)
  let m : List Char := "column".toList ++ ([' '] ++ column.repr.toList)
  have htext : q.text.toList = (a ++ m) ++ ':' :: q.fields.rest := by
    rw [toList_text]
    simp [q, a, m]
  have hcolon : ':' ∉ a ++ m := by
    have hl : ':' ∉ q.lineText := not_mem_lineText (by decide) (by decide)
    have hr : ':' ∉ column.repr.toList := not_mem_repr (by decide) column
    simp [a, m, hl, hr, -Nat.toList_repr]
  have hw := ho.writes
  have hcut := List.take_append_drop i q.text.toList
  generalize (Printed.text ⟨.errorAt (some column), line, message⟩).toList.drop i = t at hw hcut
  cases hw with
  | @line x ds rest hx =>
    rw [htext, ← List.append_assoc] at hcut
    rcases append_colon_eq hcolon hcut.symm with hy | ⟨z, -, hz⟩
    · exact not_isLineNumber_of_columnNumber (digits_repr column) hx _ hy
    · exact not_mem_rest (p := q) hm (by rw [hz]; simp)

/-- In a line with parentheses, no colon follows a digit. -/
theorem not_occursAt_of_called {file word : String} {line : Nat} {severity : Severity}
    {message : String} (h : Printed.Clear ⟨.called file severity word, line, message⟩) {shape : Shape}
    (hs : shape = .line ∨ shape = .errorAt) (i : Nat) (f : Fields) :
    ¬ shape.OccursAt (Printed.text ⟨.called file severity word, line, message⟩).toList i f := by
  intro ho
  obtain ⟨hm, hword, -, -, -, hfile⟩ := h.suits
  let q : Printed := ⟨.called file severity word, line, message⟩
  let a : List Char := (file.toList ++ '(' :: line.repr.toList) ++ [')']
  have htext : q.text.toList = a ++ ':' :: ((' ' :: word.toList) ++ ':' :: q.fields.rest) := by
    rw [toList_text]
    simp [q, a]
  have ha : ':' ∉ a := by
    have hr : ':' ∉ line.repr.toList := not_mem_repr (by decide) line
    simp [a, hfile, hr, -Nat.toList_repr]
  have hb : ':' ∉ ' ' :: word.toList := by
    have hw : ':' ∉ word.toList := not_mem_word hword (by decide)
    simp [hw]
  obtain ⟨u, d, v, hw, hd⟩ := ho.writes.exists_digit_colon hs
  have hcut := List.take_append_drop i q.text.toList
  rw [show q.text.toList.drop i = (u ++ [d]) ++ ':' :: v by rw [hw]; simp, htext,
    ← List.append_assoc, ← List.append_assoc] at hcut
  -- the colon stands behind the parentheses, behind the severity or in the message
  rcases append_colon_eq ha hcut.symm with hy | ⟨z, hy, hz⟩
  · have hlast := congrArg List.getLast? hy
    rw [List.getLast?_concat, List.getLast?_concat] at hlast
    obtain rfl : d = ')' := Option.some.inj hlast
    exact absurd hd (by decide)
  · rcases append_colon_eq hb hz with rfl | ⟨z', rfl, hz'⟩
    · have hlast := congrArg List.getLast? hy
      rw [List.getLast?_concat, List.getLast?_append_cons] at hlast
      have hmem : d ∈ ':' :: ' ' :: word.toList := List.mem_of_getLast? hlast.symm
      rcases List.mem_cons.1 hmem with rfl | hmem
      · exact absurd hd (by decide)
      · rcases List.mem_cons.1 hmem with rfl | hmem
        · exact absurd hd (by decide)
        · rw [isDigit_word hword hmem] at hd
          exact Bool.noConfusion hd
    · exact not_mem_rest (p := q) hm (by rw [hz']; simp)

end Printed.Clear

/-! ## Reading back -/

theorem ofLine?_cons_of_firstOccurs {shape : Shape} {shapes : List Shape} {p : Printed} {i : Nat}
    (h : p.Clear) (hf : shape.FirstOccurs p.text.toList i p.fields) :
    ofLine? (shape :: shapes) p.text = some p.diagnostic := by
  rw [ofLine?, List.findSome?_cons, find_diagnostic? h.oneLine_text hf, h.fields_diagnostic?]

theorem ofLine?_cons_of_not_occursAt {shape : Shape} {shapes : List Shape} {p : Printed}
    (h : p.Clear) (hno : ∀ i f, ¬ shape.OccursAt p.text.toList i f) :
    ofLine? (shape :: shapes) p.text = ofLine? shapes p.text := by
  rw [ofLine?, List.findSome?_cons, find_eq_none h.oneLine_text hno]
  rfl

/-- A clear message is read back from its line. -/
theorem ofLine?_text (p : Printed) (h : p.Clear) : ofLine? Shape.all p.text = some p.diagnostic := by
  have hlocated : (∀ file column severity word, p.form ≠ .located file column severity word) →
      ofLine? Shape.all p.text = ofLine? [.line, .errorAt, .called, .errorLine] p.text := fun hform =>
    ofLine?_cons_of_not_occursAt h
      (Printed.Clear.not_occursAt_located (h.count_colon_text hform))
  obtain ⟨form, line, message⟩ := p
  cases form with
  | located file column severity word =>
    exact ofLine?_cons_of_firstOccurs h h.firstOccurs_located
  | line =>
    rw [hlocated (fun _ _ _ _ => Form.noConfusion)]
    exact ofLine?_cons_of_firstOccurs h (Printed.Clear.firstOccurs_line line message)
  | errorAt column =>
    rw [hlocated (fun _ _ _ _ => Form.noConfusion)]
    cases column with
    | none =>
      exact ofLine?_cons_of_firstOccurs h (Printed.Clear.firstOccurs_line_of_errorAt line message)
    | some column =>
      rw [ofLine?_cons_of_not_occursAt h
        (Printed.Clear.not_occursAt_line_of_errorAt h.suits.1)]
      exact ofLine?_cons_of_firstOccurs h (Printed.Clear.firstOccurs_errorAt column line message)
  | called file severity word =>
    rw [hlocated (fun _ _ _ _ => Form.noConfusion),
      ofLine?_cons_of_not_occursAt h (h.not_occursAt_of_called (Or.inl rfl)),
      ofLine?_cons_of_not_occursAt h (h.not_occursAt_of_called (Or.inr rfl))]
    exact ofLine?_cons_of_firstOccurs h h.firstOccurs_called
  | errorLine =>
    rw [hlocated (fun _ _ _ _ => Form.noConfusion)]
    exact ofLine?_cons_of_firstOccurs h (Printed.Clear.firstOccurs_line_of_errorLine line message)

/-- A drive letter before the file name, a capital in the severity and a place in the message. -/
theorem ofLine?_text_of_drive :
    Printed.Clear ⟨.located "C:\\a.cple" 10 .error "Error", 5, "see b.cple:1:2: error: c"⟩ ∧
      ofLine? Shape.all "C:\\a.cple:5:10: Error: see b.cple:1:2: error: c" =
        some { line := 4, column := 10, severity := .error
               message := "see b.cple:1:2: error: c" } := by
  have hdigit : ∀ u c v, "C:\\a.cple".toList = u ++ ':' :: c :: v → isDigit c = false := by
    intro u c v h
    match u, h with
    | [], h => exact absurd (List.cons.inj h).1 (by decide)
    | [_], h =>
      obtain rfl : '\\' = c := (List.cons.inj (List.cons.inj (List.cons.inj h).2).2).1
      decide
    | _ :: _ :: u, h =>
      have ht : "\\a.cple".toList = u ++ ':' :: c :: v := (List.cons.inj (List.cons.inj h).2).2
      exact absurd (by rw [ht]; simp : ':' ∈ "\\a.cple".toList) (by decide)
  have h : Printed.Clear
      ⟨.located "C:\\a.cple" 10 .error "Error", 5, "see b.cple:1:2: error: c"⟩ :=
    { line_pos := by decide
      line_lt := Number.lt_digitBound (k := 1) (by decide) (by decide)
      message_ne := by decide
      message_oneLine := by unfold OneLine; decide
      message_trim := by decide
      suits := ⟨by unfold Names; decide, Number.lt_digitBound (k := 2) (by decide) (by decide),
        by decide, by unfold OneLine; decide, by decide, hdigit⟩ }
  have htext : Printed.text ⟨.located "C:\\a.cple" 10 .error "Error", 5, "see b.cple:1:2: error: c"⟩ =
      "C:\\a.cple:5:10: Error: see b.cple:1:2: error: c" := by decide +kernel
  refine ⟨h, ?_⟩
  rw [← htext]
  exact ofLine?_text _ h

end Workbench.Diagnostic
