import Mathlib.Data.List.Chain
import Workbench.Json.Printer
import Workbench.Proofs.Json.Grammar
import Workbench.Proofs.Number.Decimal
import Workbench.Proofs.Record

/-!
# What is written is in the grammar

* `Separate s` : a text in which no two halves make a pair, as in every text of characters;
* `units s`, `paired_units` : the numbers by which such a text is written, and the text from them;
* `quoted_writeText` : a text is written as the grammar has it;
* `Kept room v` : a value that is read again as it was;
* `Prints w room v`, `prints_write` : such a value is written as the grammar has it.
-/

namespace Workbench.Json

open Number (digitLimit digitBound)
open Settings (Value)
open Text (CodePoint CodePoints)

/-! ## Texts -/

/-- No half that begins a pair stands directly before one that ends a pair. The two would be read as
one character. -/
def Separate (s : CodePoints) : Prop :=
  s.IsChain fun c d => ¬ (isHighHalf c.toNat = true ∧ isLowHalf d.toNat = true)

/-- The numbers by which a code point is written: its own, or those of the two halves of a pair. -/
def unitsOf (c : CodePoint) : List Nat :=
  if c.toNat < 0x10000 then [c.toNat]
  else [0xD800 + (c.toNat - 0x10000) / 0x400, 0xDC00 + (c.toNat - 0x10000) % 0x400]

def units (s : CodePoints) : List Nat := s.flatMap unitsOf

theorem toNat_char (c : Char) : (CodePoint.char c).toNat = c.toNat := rfl

theorem toNat_half (n : Fin 0x800) : (CodePoint.half n).toNat = 0xD800 + n := rfl

/-- The numbers of characters leave out those of halves. -/
theorem toNat_char_cases (c : Char) :
    c.toNat < 0xD800 ∨ 0xDFFF < c.toNat ∧ c.toNat < 0x110000 := c.valid

theorem toNat_lt (c : CodePoint) : c.toNat < 0x110000 := by
  cases c with
  | char c =>
    have hcases := toNat_char_cases c
    rw [toNat_char]
    omega
  | half n =>
    rw [toNat_half]
    omega

theorem ofNat_toNat (c : CodePoint) : CodePoint.ofNat c.toNat = c := by
  unfold CodePoint.ofNat
  cases c with
  | char c =>
    have hcases := toNat_char_cases c
    rw [dif_neg (by rw [toNat_char]; omega), toNat_char, Char.ofNat_toNat]
  | half n =>
    rw [dif_pos (by rw [toNat_half]; omega)]
    exact congrArg CodePoint.half (Fin.ext (Nat.add_sub_cancel_left 0xD800 n))

/-- Only characters have numbers beyond those of halves. -/
theorem eq_char_of_le {c : CodePoint} (h : 0x10000 ≤ c.toNat) :
    c = .char (Char.ofNat c.toNat) := by
  cases c with
  | char c => rw [toNat_char, Char.ofNat_toNat]
  | half n =>
    rw [toNat_half] at h
    omega

theorem isHighHalf_iff {n : Nat} : isHighHalf n = true ↔ 0xD800 ≤ n ∧ n < 0xDC00 := by
  simp [isHighHalf]

theorem isLowHalf_iff {n : Nat} : isLowHalf n = true ↔ 0xDC00 ≤ n ∧ n < 0xE000 := by
  simp [isLowHalf]

theorem paired_cons_of_not_high {n : Nat} (h : isHighHalf n = false) (ns : List Nat) :
    paired (n :: ns) = .ofNat n :: paired ns := by
  cases ns with
  | nil => rfl
  | cons n' ns =>
    rw [paired, h, Bool.false_and, if_neg Bool.false_ne_true]

theorem paired_cons_of_not_low {n : Nat} {ns : List Nat} (h : ∀ n' ∈ ns.head?, isLowHalf n' = false) :
    paired (n :: ns) = .ofNat n :: paired ns := by
  cases ns with
  | nil => rfl
  | cons n' ns =>
    rw [paired, h n' rfl, Bool.and_false, if_neg Bool.false_ne_true]

theorem isLowHalf_of_head?_units {c : CodePoint} {s : CodePoints}
    (h : isLowHalf c.toNat = false) : ∀ n ∈ (units (c :: s)).head?, isLowHalf n = false := by
  intro n hn
  have hlt := toNat_lt c
  rw [units, List.flatMap_cons, unitsOf] at hn
  split at hn
  · obtain rfl := Option.some.inj hn
    exact h
  · obtain rfl := Option.some.inj hn
    rw [← Bool.not_eq_true, isLowHalf_iff]
    omega

theorem pair_units {n : Nat} (h : 0x10000 ≤ n) :
    pair (0xD800 + (n - 0x10000) / 0x400) (0xDC00 + (n - 0x10000) % 0x400) = Char.ofNat n := by
  have hn : 0x10000 + (0xD800 + (n - 0x10000) / 0x400 - 0xD800) * 0x400 +
      (0xDC00 + (n - 0x10000) % 0x400 - 0xDC00) = n := by omega
  rw [pair, hn]

/-- A text is had again from the numbers by which it is written. -/
theorem paired_units {s : CodePoints} (h : Separate s) : paired (units s) = s := by
  induction s with
  | nil => rfl
  | cons c s ih =>
    have hs : paired (units s) = s := ih (List.IsChain.tail h)
    have hlt := toNat_lt c
    have hunits : units (c :: s) = unitsOf c ++ units s := List.flatMap_cons
    by_cases hbig : c.toNat < 0x10000
    · have hone : units (c :: s) = c.toNat :: units s := by
        rw [hunits, unitsOf, if_pos hbig]
        rfl
      have hpaired : paired (c.toNat :: units s) = .ofNat c.toNat :: paired (units s) := by
        cases hhigh : isHighHalf c.toNat with
        | false => exact paired_cons_of_not_high hhigh _
        | true =>
          cases s with
          | nil => rfl
          | cons d s =>
            have hlow : isLowHalf d.toNat = false :=
              eq_false_of_ne_true fun hlow => (List.isChain_cons_cons.1 h).1 ⟨hhigh, hlow⟩
            exact paired_cons_of_not_low (isLowHalf_of_head?_units hlow)
      rw [hone, hpaired, hs, ofNat_toNat]
    · rw [hunits, unitsOf, if_neg hbig]
      have hhigh : isHighHalf (0xD800 + (c.toNat - 0x10000) / 0x400) = true :=
        isHighHalf_iff.2 (by omega)
      have hlow : isLowHalf (0xDC00 + (c.toNat - 0x10000) % 0x400) = true :=
        isLowHalf_iff.2 (by omega)
      rw [List.cons_append, List.singleton_append, paired, hhigh, hlow, Bool.and_self, if_pos rfl,
        hs, pair_units (by omega), ← eq_char_of_le (by omega)]

/-- No character is half of a pair. -/
theorem separate_ofString (s : String) : Separate (CodePoints.ofString s) := by
  unfold Separate Text.CodePoints.ofString
  refine (List.pairwise_map.2 (List.pairwise_of_forall fun c d h => ?_)).isChain
  have hcases := toNat_char_cases c
  have hhigh := isHighHalf_iff.1 h.1
  rw [toNat_char] at hhigh
  omega

theorem hexValue?_hexDigit : ∀ n < 16, hexValue? (Text.hexDigit n) = some n := by decide

/-- The four digits of a number write it. -/
theorem piece_unicodeEscape {n : Nat} (h : n < 0x10000) : Piece (unicodeEscape n) n := by
  refine .unicode (a := Text.hexDigit (n / 16 / 16 / 16 % 16)) (b := Text.hexDigit (n / 16 / 16 % 16))
    (c := Text.hexDigit (n / 16 % 16)) (d := Text.hexDigit (n % 16)) ?_
  unfold hex4?
  rw [hexValue?_hexDigit _ (by omega), hexValue?_hexDigit _ (by omega),
    hexValue?_hexDigit _ (by omega), hexValue?_hexDigit _ (by omega)]
  dsimp only
  congr 1
  omega

theorem points_append {s t : List Char} {ns ms : List Nat} (hs : Points s ns) (ht : Points t ms) :
    Points (s ++ t) (ns ++ ms) := by
  induction hs with
  | nil => exact ht
  | cons hp hs ih =>
    rw [List.append_assoc]
    exact .cons hp ih

theorem points_of_piece {p : List Char} {n : Nat} (h : Piece p n) : Points p [n] := by
  have hcons := Points.cons h .nil
  rwa [List.append_nil] at hcons

/-- A character is written by itself, by a letter after a backslash, or by its number. -/
theorem piece_escape {c : Char} (h : c.toNat < 0x10000) : Piece (escape c) c.toNat := by
  unfold escape
  split
  · next hself =>
    have hself : escaped? c = some c := if_pos (hself.imp_right Or.inl)
    exact .short hself
  · next hself =>
    obtain ⟨hquote, hslash⟩ := not_or.1 hself
    split
    · next hc => exact hc ▸ .short (d := '\n') rfl
    split
    · next hc => exact hc ▸ .short (d := '\r') rfl
    split
    · next hc => exact hc ▸ .short (d := '\t') rfl
    split
    · next hc => exact hc ▸ .short (d := '\x0c') rfl
    split
    · next hc => exact hc ▸ .short (d := '\x08') rfl
    split
    · next hplain => exact .plain hplain.1 hquote hslash
    · exact piece_unicodeEscape h

/-- A character beyond U+FFFF is written by the halves of a pair. -/
theorem escape_of_le {c : Char} (h : 0x10000 ≤ c.toNat) :
    escape c = unicodeEscape (0xD800 + (c.toNat - 0x10000) / 0x400) ++
      unicodeEscape (0xDC00 + (c.toNat - 0x10000) % 0x400) := by
  have hne : ∀ d : Char, d.toNat < 0x10000 → c ≠ d := fun d hd he => by
    rw [he] at h
    omega
  unfold escape
  rw [if_neg (not_or.2 ⟨hne _ (by decide), hne _ (by decide)⟩), if_neg (hne _ (by decide)),
    if_neg (hne _ (by decide)), if_neg (hne _ (by decide)), if_neg (hne _ (by decide)),
    if_neg (hne _ (by decide)), if_neg (by omega), if_neg (by omega)]

theorem points_escapePoint (c : CodePoint) : Points (escapePoint c) (unitsOf c) := by
  have hlt := toNat_lt c
  unfold unitsOf
  cases c with
  | half n =>
    rw [if_pos (by rw [toNat_half]; omega)]
    exact points_of_piece (piece_unicodeEscape (by rw [toNat_half]; omega))
  | char c =>
    rw [toNat_char] at hlt ⊢
    split
    · next hsmall => exact points_of_piece (piece_escape hsmall)
    · next hbig =>
      rw [escapePoint, escape_of_le (by omega)]
      exact .cons (piece_unicodeEscape (by omega))
        (points_of_piece (piece_unicodeEscape (by omega)))

theorem points_escapePoints (s : CodePoints) : Points (s.flatMap escapePoint) (units s) := by
  induction s with
  | nil => exact .nil
  | cons c s ih =>
    rw [units, List.flatMap_cons, List.flatMap_cons]
    exact points_append (points_escapePoint c) ih

/-- A text is written as the grammar has it. -/
theorem quoted_writeText {s : CodePoints} (h : Separate s) : Quoted (writeText s) s := by
  have hquoted := Quoted.mk (points_escapePoints s)
  rwa [paired_units h] at hquoted

/-! ## Numbers -/

theorem isDecimal_of_mem_repr {n : Nat} {c : Char} (h : c ∈ n.repr.toList) : isDecimal c = true := by
  rw [Nat.toList_repr] at h
  have hdigit : c.isDigit = true := Nat.isDigit_of_mem_toDigits (by decide) (by decide) h
  simpa [isDecimal, Char.isDigit, Char.le_def] using hdigit

theorem digitChar_ne_zero : ∀ n < 10, 0 < n → Nat.digitChar n ≠ '0' := by decide

/-- Only the digits of zero begin with a zero. -/
theorem head?_toDigits {n : Nat} (h : 0 < n) : (Nat.toDigits 10 n).head? ≠ some '0' := by
  induction n using Nat.strongRecOn with
  | ind n ih =>
    by_cases hlt : n < 10
    · rw [Nat.toDigits_of_lt_base hlt]
      exact fun he => digitChar_ne_zero n hlt h (Option.some.inj he)
    · rw [Nat.toDigits_of_base_le (by decide) (by omega),
        List.head?_append_of_ne_nil _ Nat.toDigits_ne_nil]
      exact ih (n / 10) (by omega) (by omega)

theorem whole_repr (n : Nat) : Whole n.repr.toList := by
  by_cases h : n = 0
  · rw [h]
    exact .zero
  · refine .digits ⟨?_, fun c hc => isDecimal_of_mem_repr hc⟩ ?_
    · rw [Nat.toList_repr]
      exact Nat.toDigits_ne_nil
    · rw [Nat.toList_repr]
      exact head?_toDigits (by omega)

/-- A whole number is written by its sign and the digits of what is left. -/
theorem exists_digits (n : Int) : ∃ negative, n = signed negative n.natAbs ∧
    (Number.text n).toList = minus negative ++ n.natAbs.repr.toList := by
  cases n with
  | ofNat m => exact ⟨false, rfl, rfl⟩
  | negSucc m =>
    refine ⟨true, rfl, ?_⟩
    show ("-" ++ (m + 1).repr).toList = _
    rw [String.toList_append]
    rfl

theorem numeral_text {n : Int} (h : n.natAbs < digitBound) :
    Numeral digitLimit (Number.text n).toList (.int n) := by
  obtain ⟨negative, hn, htext⟩ := exists_digits n
  have hint : Numeral digitLimit (minus negative ++ n.natAbs.repr.toList)
      (.int (signed negative (Text.value n.natAbs.repr.toList))) :=
    .int (whole_repr n.natAbs) (Number.length_repr_le_digitLimit.2 h)
  rwa [Number.value_repr, ← hn, ← htext] at hint

/-! ## Carriage returns -/

theorem not_mem_piece {p : List Char} {n : Nat} (h : Piece p n) : '\r' ∉ p := by
  cases h with
  | plain hc hquote hslash =>
    intro hmem
    rw [← List.eq_of_mem_singleton hmem] at hc
    exact absurd hc (by decide)
  | short h =>
    intro hmem
    rcases List.mem_cons.1 hmem with hr | hmem
    · exact absurd hr (by decide)
    · rw [← List.eq_of_mem_singleton hmem] at h
      exact nomatch h
  | @unicode a b c d n h =>
    have hdigit : ∀ e ∈ [a, b, c, d], hexValue? e ≠ none := by
      unfold hex4? at h
      split at h
      · next ha hb hc hd =>
        simp only [List.forall_mem_cons, ha, hb, hc, hd]
        simp
      · exact nomatch h
    intro hmem
    rcases List.mem_cons.1 hmem with hr | hmem
    · exact absurd hr (by decide)
    rcases List.mem_cons.1 hmem with hr | hmem
    · exact absurd hr (by decide)
    exact hdigit '\r' hmem rfl

theorem not_mem_points {s : List Char} {ns : List Nat} (h : Points s ns) : '\r' ∉ s := by
  induction h with
  | nil => exact List.not_mem_nil
  | cons hp hs ih => exact List.not_mem_append (not_mem_piece hp) ih

theorem not_mem_writeText (s : CodePoints) : '\r' ∉ writeText s := by
  have hpoints := not_mem_points (points_escapePoints s)
  simp only [writeText, List.mem_cons, List.mem_append, List.not_mem_nil, or_false, not_or]
  exact ⟨⟨by decide, hpoints⟩, by decide⟩

theorem not_mem_text (n : Int) : '\r' ∉ (Number.text n).toList := by
  obtain ⟨negative, -, htext⟩ := exists_digits n
  rw [htext]
  refine List.not_mem_append ?_ fun hr => absurd (isDecimal_of_mem_repr hr) (by decide)
  cases negative <;> decide

/-! ## Texts in rows -/

namespace Written

@[simp] theorem text_all (s : List Char) : (all s).text = s := List.append_nil s

@[simp] theorem complete_all (s : List Char) : (all s).complete = true := rfl

variable {a b : Written}

theorem complete_eq_true : a.complete = true ↔ a.obstacle? = none := Option.isNone_iff_eq_none

theorem append_of_complete (h : a.complete = true) :
    a ++ b = { pieces := a.pieces ++ b.pieces, obstacle? := b.obstacle? } := if_pos h

/-- What comes after a text that is stopped is not written. -/
theorem append_of_stopped (h : a.complete = false) (b : Written) : a ++ b = a :=
  if_neg (Bool.eq_false_iff.1 h)

@[simp] theorem complete_append : (a ++ b).complete = (a.complete && b.complete) := by
  cases h : a.complete with
  | true =>
    rw [append_of_complete h]
    rfl
  | false => rw [append_of_stopped h, h, Bool.false_and]

theorem text_append (h : a.complete = true) : (a ++ b).text = a.text ++ b.text := by
  rw [append_of_complete h, text, List.flatten_append]
  rfl

end Written

/-- Texts with commas between them, each on a line of its own. -/
def laid (level : Nat) (lead : List Char) : List (List Char) → List Char
  | [] => []
  | t :: ts => lead ++ t ++ laid level (',' :: newLine (level + 1)) ts

theorem laid_cons_lead (level : Nat) (c : Char) (lead t : List Char) (ts : List (List Char)) :
    laid level (c :: lead) (t :: ts) = c :: laid level lead (t :: ts) := rfl

theorem gap_newLine (level : Nat) : Gap (newLine level) := by
  intro c hc
  rcases List.mem_cons.1 hc with rfl | hc
  · rfl
  · rw [List.eq_of_mem_replicate hc]
    rfl

theorem row_laid {level : Nat} {a b t : List Char} {ts : List (List Char)} (ha : Gap a)
    (hb : Gap b) : Row (t :: ts) (laid level a (t :: ts) ++ b) := by
  induction ts generalizing a t with
  | nil =>
    rw [laid, laid, List.append_nil, List.append_assoc]
    exact .one ha hb
  | cons t' ts ih =>
    rw [laid, laid_cons_lead, List.append_assoc, List.append_assoc, List.cons_append]
    exact .more ha gap_nil (ih (gap_newLine (level + 1)))

theorem not_mem_newLine (level : Nat) : '\r' ∉ newLine level := by
  intro h
  rcases List.mem_cons.1 h with h | h
  · exact absurd h (by decide)
  · exact absurd (List.eq_of_mem_replicate h) (by decide)

theorem not_mem_laid {level : Nat} {lead : List Char} {ts : List (List Char)} (hlead : '\r' ∉ lead)
    (h : ∀ t ∈ ts, '\r' ∉ t) : '\r' ∉ laid level lead ts := by
  induction ts generalizing lead with
  | nil => exact List.not_mem_nil
  | cons t ts ih =>
    obtain ⟨ht, hts⟩ := List.forall_mem_cons.1 h
    have hnext : '\r' ∉ ',' :: newLine (level + 1) :=
      List.not_mem_cons_of_ne_of_not_mem (by decide) (not_mem_newLine (level + 1))
    simp only [laid, List.mem_append, not_or]
    exact ⟨⟨hlead, ht⟩, ih hnext hts⟩

/-! ## Values -/

/-- A value that is read again as it was. Its whole numbers have no more digits than are read, in its
texts no halves make a pair, no object in it gives a name twice, and there are no fractions. Lists and
objects are nested at most `room` deep. -/
inductive Kept : Nat → Value → Prop
  | null {room : Nat} : Kept room .null
  | bool {room : Nat} {b : Bool} : Kept room (.bool b)
  | int {room : Nat} {n : Int} (h : n.natAbs < digitBound) : Kept room (.int n)
  | text {room : Nat} {s : CodePoints} (h : Separate s) : Kept room (.text s)
  | list {room : Nat} {items : List Value} (h : ∀ v ∈ items, Kept room v) :
      Kept (room + 1) (.list items)
  | object {room : Nat} {fields : Record CodePoints Value} (hnodup : fields.keys.Nodup)
      (hnames : ∀ name ∈ fields.keys, Separate name) (h : ∀ v ∈ fields.values, Kept room v) :
      Kept (room + 1) (.object fields)

/-- An object is kept when something is put into it that is. -/
theorem Kept.put {room : Nat} {r : Record CodePoints Value} {name : CodePoints} {v : Value}
    (h : Kept (room + 1) (.object r)) (hname : Separate name) (hv : Kept room v) :
    Kept (room + 1) (.object (r.put name v)) := by
  cases h with
  | object hnodup hnames hvalues =>
    refine .object (Record.nodup_keys_put hnodup name v) ?_ fun w hw => ?_
    · rw [Record.keys_put]
      split
      · exact hnames
      · exact List.forall_mem_append.2 ⟨hnames, List.forall_mem_singleton.2 hname⟩
    · rcases Record.mem_values_put hw with rfl | hw
      · exact hv
      · exact hvalues w hw

/-- What is written is the whole of a value, as the grammar has it, and without carriage returns. -/
structure Prints (w : Written) (room : Nat) (v : Value) : Prop where
  complete : w.complete = true
  writes : Writes digitLimit room w.text v
  noReturn : '\r' ∉ w.text

theorem prints_all {room : Nat} {s : List Char} {v : Value} (h : Writes digitLimit room s v)
    (hno : '\r' ∉ s) : Prints (.all s) room v :=
  ⟨rfl, by rwa [Written.text_all], by rwa [Written.text_all]⟩

section Equations

-- The bound for digits is too large a number to be unfolded on the way to these equations.
attribute [local irreducible] Number.text?

theorem write_int (level : Nat) (n : Int) :
    write level (.int n) = (Number.text? n).elim (.stuck .longNumber) fun t => .all t.toList := by
  unfold write
  cases Number.text? n <;> rfl

theorem writeItems_int (level : Nat) (lead : List Char) (n : Int) (vs : List Value) :
    writeItems level lead (.int n :: vs) =
      ((Number.text? n).elim (.stuck .longNumber) fun t => .all (lead ++ t.toList)) ++
        writeItems level (',' :: newLine (level + 1)) vs := by
  conv => lhs; unfold writeItems
  dsimp only
  cases Number.text? n <;> rfl

theorem write_emptyList {level : Nat} (h : level < depthLimit) :
    write level (.list []) = .all ['[', ']'] := if_pos h

theorem write_list {level : Nat} (h : level < depthLimit) (v : Value) (vs : List Value) :
    write level (.list (v :: vs)) =
      writeItems level ('[' :: newLine (level + 1)) (v :: vs) ++ .all (newLine level ++ [']']) :=
  if_pos h

theorem write_deepList {level : Nat} (h : ¬ level < depthLimit) (items : List Value) :
    write level (.list items) = .stuck .depth := by
  cases items <;> exact if_neg h

theorem write_emptyObject {level : Nat} (h : level < depthLimit) :
    write level (.object []) = .all ['\x7b', '\x7d'] := if_pos h

theorem write_object {level : Nat} (h : level < depthLimit) (f : CodePoints × Value)
    (fs : List (CodePoints × Value)) :
    write level (.object (f :: fs)) =
      writeFields level ('\x7b' :: newLine (level + 1)) (f :: fs) ++
        .all (newLine level ++ ['\x7d']) := if_pos h

theorem write_deepObject {level : Nat} (h : ¬ level < depthLimit)
    (fields : List (CodePoints × Value)) :
    write level (.object fields) = .stuck .depth := by
  cases fields <;> exact if_neg h

theorem writeFields_cons (level : Nat) (lead : List Char) (f : CodePoints × Value)
    (fs : List (CodePoints × Value)) :
    writeFields level lead (f :: fs) =
      .all (lead ++ writeText f.1 ++ [':', ' ']) ++ write (level + 1) f.2 ++
        writeFields level (',' :: newLine (level + 1)) fs := rfl

/-- A number is written together with what stands before it, anything else after it. -/
theorem exists_item {level : Nat} {v : Value} (lead : List Char) (vs : List Value)
    (h : (write (level + 1) v).complete = true) :
    ∃ item : Written, item.complete = true ∧ item.text = lead ++ (write (level + 1) v).text ∧
      writeItems level lead (v :: vs) = item ++ writeItems level (',' :: newLine (level + 1)) vs := by
  have hafter : (Written.all lead ++ write (level + 1) v).complete = true ∧
      (Written.all lead ++ write (level + 1) v).text = lead ++ (write (level + 1) v).text := by
    rw [Written.complete_append, Written.text_append rfl, Written.text_all, h]
    exact ⟨rfl, rfl⟩
  cases v with
  | int n =>
    rw [write_int] at h ⊢
    rw [writeItems_int]
    cases ht : Number.text? n with
    | none =>
      rw [ht] at h
      exact absurd h Bool.false_ne_true
    | some t =>
      refine ⟨.all (lead ++ t.toList), rfl, ?_, rfl⟩
      rw [Option.elim_some, Written.text_all, Written.text_all]
  | null | bool b | float bits | text s | list items | object fields | foreign f =>
    exact ⟨_, hafter.1, hafter.2, rfl⟩

end Equations

/-- An item as it is written. -/
def partOf (level : Nat) (v : Value) : List Char × Value := ((write (level + 1) v).text, v)

theorem writeItems_eq {level : Nat} (lead : List Char) {vs : List Value}
    (h : ∀ v ∈ vs, (write (level + 1) v).complete = true) :
    (writeItems level lead vs).complete = true ∧
      (writeItems level lead vs).text = laid level lead ((vs.map (partOf level)).map Prod.fst) := by
  induction vs generalizing lead with
  | nil => exact ⟨rfl, rfl⟩
  | cons v vs ih =>
    obtain ⟨hv, hvs⟩ := List.forall_mem_cons.1 h
    obtain ⟨hrest, htext⟩ := ih (',' :: newLine (level + 1)) hvs
    obtain ⟨item, hitem, hfirst, heq⟩ := exists_item lead vs hv
    rw [heq, Written.complete_append, Written.text_append hitem, hitem, hrest, hfirst, htext]
    exact ⟨rfl, rfl⟩

/-- A field as it is written. -/
def memberOf (level : Nat) (f : CodePoints × Value) : Member where
  name := f.1
  value := f.2
  quoted := writeText f.1
  before := []
  after := [' ']
  written := (write (level + 1) f.2).text

theorem formed_memberOf (level : Nat) {f : CodePoints × Value} (h : Separate f.1) :
    (memberOf level f).Formed where
  name := quoted_writeText h
  before := gap_nil
  after := fun c hc => by
    rw [List.eq_of_mem_singleton hc]
    rfl

theorem not_mem_memberOf {level : Nat} {f : CodePoints × Value}
    (h : '\r' ∉ (write (level + 1) f.2).text) : '\r' ∉ (memberOf level f).text := by
  simp only [Member.text, memberOf, List.nil_append, List.singleton_append, List.mem_append,
    List.mem_cons, not_or]
  exact ⟨not_mem_writeText f.1, by decide, by decide, h⟩

theorem writeFields_eq {level : Nat} (lead : List Char) {fs : List (CodePoints × Value)}
    (h : ∀ f ∈ fs, (write (level + 1) f.2).complete = true) :
    (writeFields level lead fs).complete = true ∧ (writeFields level lead fs).text =
      laid level lead ((fs.map (memberOf level)).map Member.text) := by
  induction fs generalizing lead with
  | nil => exact ⟨rfl, rfl⟩
  | cons f fs ih =>
    obtain ⟨hf, hfs⟩ := List.forall_mem_cons.1 h
    obtain ⟨hrest, htext⟩ := ih (',' :: newLine (level + 1)) hfs
    rw [writeFields_cons, Written.complete_append, Written.complete_append, hf, hrest,
      Written.text_append (by rw [Written.complete_append, hf]; rfl), Written.text_append rfl,
      Written.text_all, htext]
    refine ⟨rfl, ?_⟩
    simp [laid, memberOf, Member.text]

/-- A row of texts between brackets, the last one on a line of its own. -/
theorem enclosed {level : Nat} {w : Written} {opening : Char} (closing : Char) {t : List Char}
    {ts : List (List Char)} (hcomplete : w.complete = true)
    (htext : w.text = laid level (opening :: newLine (level + 1)) (t :: ts)) :
    (w ++ .all (newLine level ++ [closing])).complete = true ∧
      (w ++ .all (newLine level ++ [closing])).text =
        opening :: (laid level (newLine (level + 1)) (t :: ts) ++ newLine level ++ [closing]) := by
  rw [Written.complete_append, Written.text_append hcomplete, hcomplete, htext, laid_cons_lead,
    Written.text_all, List.cons_append, List.append_assoc]
  exact ⟨rfl, rfl⟩

theorem not_mem_enclosed {level : Nat} {opening closing : Char} {ts : List (List Char)}
    (hopening : '\r' ≠ opening) (hclosing : '\r' ≠ closing) (h : ∀ t ∈ ts, '\r' ∉ t) :
    '\r' ∉ opening :: (laid level (newLine (level + 1)) ts ++ newLine level ++ [closing]) := by
  simp only [List.mem_cons, List.mem_append, List.not_mem_nil, or_false, not_or]
  exact ⟨hopening, ⟨not_mem_laid (not_mem_newLine (level + 1)) h, not_mem_newLine level⟩, hclosing⟩

/-- A list is written as the grammar has it if its items are. What is read from it are the items that
are read from theirs. -/
theorem prints_list {room level : Nat} {items : List Value} {g : Value → Value}
    (hlevel : level < depthLimit) (h : ∀ v ∈ items, Prints (write (level + 1) v) room (g v)) :
    Prints (write level (.list items)) (room + 1) (.list (items.map g)) := by
  obtain _ | ⟨v, vs⟩ := items
  · rw [write_emptyList hlevel]
    exact prints_all (.emptyList gap_nil) (by decide)
  · obtain ⟨hitems, htext⟩ :=
      writeItems_eq ('[' :: newLine (level + 1)) fun v hv => (h v hv).complete
    obtain ⟨hcomplete, hwritten⟩ := enclosed ']' hitems htext
    have hrow : Row (((v :: vs).map fun v => ((partOf level v).1, g v)).map Prod.fst)
        (laid level (newLine (level + 1)) (((v :: vs).map (partOf level)).map Prod.fst) ++
          newLine level) := by
      have htexts : ((v :: vs).map fun v => ((partOf level v).1, g v)).map Prod.fst =
          ((v :: vs).map (partOf level)).map Prod.fst := by
        rw [List.map_map, List.map_map]
        rfl
      rw [htexts]
      exact row_laid (gap_newLine (level + 1)) (gap_newLine level)
    have hvalues : ((v :: vs).map fun v => ((partOf level v).1, g v)).map Prod.snd =
        (v :: vs).map g := by
      rw [List.map_map]
      rfl
    rw [write_list hlevel]
    refine ⟨hcomplete, ?_, ?_⟩
    · have hlist := Writes.list hrow (List.forall_mem_map.2 fun v hv => (h v hv).writes)
      rw [hvalues] at hlist
      rw [hwritten]
      exact hlist
    · rw [hwritten]
      refine not_mem_enclosed (by decide) (by decide) ?_
      rw [← List.map_cons, ← List.map_cons, List.map_map]
      exact List.forall_mem_map.2 fun v hv => (h v hv).noReturn

/-- An object is written as the grammar has it if its values are. What is read from it has the values
that are read from theirs. -/
theorem prints_object {room level : Nat} {fields : Record CodePoints Value} {g : Value → Value}
    (hlevel : level < depthLimit) (hnodup : fields.keys.Nodup)
    (hnames : ∀ name ∈ fields.keys, Separate name)
    (h : ∀ v ∈ fields.values, Prints (write (level + 1) v) room (g v)) :
    Prints (write level (.object fields)) (room + 1) (.object (fields.map (Prod.map id g))) := by
  obtain _ | ⟨f₀, fs⟩ := fields
  · rw [write_emptyObject hlevel]
    exact prints_all (.emptyObject gap_nil) (by decide)
  · have hfield : ∀ f ∈ f₀ :: fs, Prints (write (level + 1) f.2) room (g f.2) :=
      fun f hf => h f.2 (List.mem_map.2 ⟨f, hf, rfl⟩)
    obtain ⟨hfields, htext⟩ :=
      writeFields_eq ('\x7b' :: newLine (level + 1)) fun f hf => (hfield f hf).complete
    obtain ⟨hcomplete, hwritten⟩ := enclosed '\x7d' hfields htext
    have hrow : Row (((f₀ :: fs).map fun f => { memberOf level f with value := g f.2 }).map Member.text)
        (laid level (newLine (level + 1)) (((f₀ :: fs).map (memberOf level)).map Member.text) ++
          newLine level) := by
      have htexts : ((f₀ :: fs).map fun f =>
          { memberOf level f with value := g f.2 }).map Member.text =
            ((f₀ :: fs).map (memberOf level)).map Member.text := by
        rw [List.map_map, List.map_map]
        rfl
      rw [htexts]
      exact row_laid (gap_newLine (level + 1)) (gap_newLine level)
    have hkeys := Record.keys_map_values g (f₀ :: fs)
    have hvalues : Record.ofList (((f₀ :: fs).map fun f =>
        { memberOf level f with value := g f.2 }).map Member.field) =
          (f₀ :: fs).map (Prod.map id g) := by
      rw [List.map_map]
      exact Record.ofList_of_nodup (hkeys ▸ hnodup)
    rw [write_object hlevel]
    refine ⟨hcomplete, ?_, ?_⟩
    · have hobject := Writes.object hrow
        (List.forall_mem_map.2 fun f hf => by
          obtain ⟨hname, hbefore, hafter⟩ :=
            formed_memberOf level (hnames f.1 (List.mem_map.2 ⟨f, hf, rfl⟩))
          exact ⟨hname, hbefore, hafter⟩)
        (List.forall_mem_map.2 fun f hf => (hfield f hf).writes)
      rw [hvalues] at hobject
      rw [hwritten]
      exact hobject
    · rw [hwritten]
      refine not_mem_enclosed (by decide) (by decide) ?_
      rw [← List.map_cons, ← List.map_cons, List.map_map]
      exact List.forall_mem_map.2 fun f hf => not_mem_memberOf (hfield f hf).noReturn

/-- A value that is kept is written as the grammar has it, at any level that leaves room for it.
Induction on the value: the texts of items and fields are laid in a row, for which the grammar of rows
holds. -/
theorem prints_write {room : Nat} {v : Value} (h : Kept room v) {level : Nat}
    (hroom : level + room ≤ depthLimit) : Prints (write level v) room v := by
  induction h generalizing level with
  | null => exact prints_all (.word (w := "null") (by simp [words])) (by decide)
  | @bool _ b =>
    cases b with
    | false => exact prints_all (.word (w := "false") (by simp [words])) (by decide)
    | true => exact prints_all (.word (w := "true") (by simp [words])) (by decide)
  | @int _ n h =>
    rw [write_int, Number.text?_eq_some h]
    exact prints_all (.number (numeral_text h)) (not_mem_text n)
  | @text _ s h => exact prints_all (.text (quoted_writeText h)) (not_mem_writeText s)
  | list h ih =>
    have hnext : ∀ v ∈ _, Prints (write (level + 1) v) _ v := fun v hv => ih v hv (by omega)
    have hlist := prints_list (g := id) (by omega) hnext
    rwa [List.map_id] at hlist
  | object hnodup hnames h ih =>
    have hnext : ∀ v ∈ _, Prints (write (level + 1) v) _ v := fun v hv => ih v hv (by omega)
    have hobject := prints_object (g := id) (by omega) hnodup hnames hnext
    rwa [Prod.map_id, List.map_id] at hobject

end Workbench.Json
