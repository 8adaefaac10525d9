import Workbench.Proofs.Json.Grammar

/-!
# Reading texts, numbers and words

The reader takes from the front of a text what the grammar calls a text, a number or a word, and
nothing else. A number goes on as long as it can, so what follows it must not look like more of it.

* `Ends s` : what can follow a value;
* `text_eq_ok` : the reader of texts;
* `number_append`, `numeral_of_number` : the reader of numbers, before what can follow one;
* `Literal limit s v`, `literal_of_scalar` : numbers and words, when they were read;
* `word?_append`, `scalar_append` : the same, when they are written.
-/

namespace Workbench.Json

open Settings (Value)
open Text (CodePoints Stops)

/-! ## Texts -/

theorem codePoints_piece {p s : List Char} {n : Nat} (opened : List Char) (hp : Piece p n)
    (hs : s ≠ []) : codePoints opened (p ++ s) = prepend n (codePoints opened s) := by
  cases hp with
  | @plain c hc hquote hslash =>
    rw [List.singleton_append, codePoints, if_neg (by omega)]
    · exact hquote
    · exact fun h _ => hslash h
    · exact fun _ _ _ _ _ h _ => hslash h
    · exact fun _ h _ => hslash h
    · exact fun _ _ h _ => hslash h
  | @short c d h =>
    have hu : c ≠ 'u' := by
      rintro rfl
      exact nomatch h
    rw [List.cons_append, List.singleton_append, codePoints, h]
    · exact fun _ _ _ _ _ h _ => hu h
    · exact hu
  | @unicode a b c d n h =>
    simp only [List.cons_append, List.nil_append]
    rw [codePoints, h]
    exact if_neg hs

theorem codePoints_of_points {inner : List Char} {ns : List Nat} (h : Points inner ns)
    (opened rest : List Char) : codePoints opened (inner ++ '"' :: rest) = .ok (ns, rest) := by
  induction h with
  | nil => rfl
  | cons hp hs ih =>
    rw [List.append_assoc, codePoints_piece opened hp (by simp), ih]
    rfl

theorem prepend_eq_ok {n : Nat} {r : Reading (List Nat)} {ns : List Nat} {rest : List Char}
    (h : prepend n r = .ok (ns, rest)) : ∃ ns', r = .ok (ns', rest) ∧ ns = n :: ns' := by
  cases r with
  | error e => exact nomatch h
  | ok x =>
    obtain ⟨ns', rest'⟩ := x
    obtain ⟨rfl, rfl⟩ := Prod.mk.inj (Except.ok.inj h)
    exact ⟨ns', rfl, rfl⟩

/-- One more piece before a text that was read. -/
theorem points_of_prepend {p s rest : List Char} {n : Nat} {ns : List Nat} {r : Reading (List Nat)}
    (hp : Piece p n) (h : prepend n r = .ok (ns, rest))
    (ih : ∀ {ns}, r = .ok (ns, rest) → ∃ inner, Points inner ns ∧ s = inner ++ '"' :: rest) :
    ∃ inner, Points inner ns ∧ p ++ s = inner ++ '"' :: rest := by
  obtain ⟨ns', hr, rfl⟩ := prepend_eq_ok h
  obtain ⟨inner, hinner, rfl⟩ := ih hr
  exact ⟨p ++ inner, .cons hp hinner, (List.append_assoc p inner _).symm⟩

theorem points_of_codePoints {opened s rest : List Char} {ns : List Nat}
    (h : codePoints opened s = .ok (ns, rest)) :
    ∃ inner, Points inner ns ∧ s = inner ++ '"' :: rest := by
  fun_induction codePoints opened s generalizing ns with
  | case2 s =>
    obtain ⟨rfl, rfl⟩ := Prod.mk.inj (Except.ok.inj h)
    exact ⟨[], .nil, rfl⟩
  | case6 a b c d s n hn hs ih => exact points_of_prepend (.unicode hn) h ih
  | case9 c s _ _ d hd ih => exact points_of_prepend (.short hd) h ih
  | case11 c s hquote hend _ _ hslash hc ih =>
    refine points_of_prepend (.plain (by omega) hquote fun hc => ?_) h ih
    cases s with
    | nil => exact hend hc rfl
    | cons d s => exact hslash d s hc rfl
  | _ => exact nomatch h

/-- The reader of texts takes what is a text between quotes, of which the first one is passed. -/
theorem text_eq_ok {s rest : List Char} {t : CodePoints} :
    text s = .ok (t, rest) ↔ ∃ q, Quoted q t ∧ '"' :: s = q ++ rest := by
  unfold text
  constructor
  · intro h
    cases hr : codePoints s s with
    | error e =>
      rw [hr] at h
      exact nomatch h
    | ok r =>
      obtain ⟨ns, rest'⟩ := r
      rw [hr] at h
      obtain ⟨rfl, rfl⟩ := Prod.mk.inj (Except.ok.inj h)
      obtain ⟨inner, hinner, hs⟩ := points_of_codePoints hr
      refine ⟨_, .mk hinner, ?_⟩
      simp [hs]
  · rintro ⟨q, ⟨hinner⟩, hs⟩
    rename_i inner ns
    have hs : s = inner ++ '"' :: rest := by simpa using hs
    rw [hs, codePoints_of_points hinner]

/-! ## Digits -/

/-- What can follow a value. -/
def Ends (s : List Char) : Prop := ∀ c ∈ s.head?, isSpace c = true ∨ c = ',' ∨ c = ']' ∨ c = '\x7d'

theorem digits_append {ds s : List Char} (hds : ∀ c ∈ ds, isDecimal c = true)
    (hs : Stops isDecimal s) : digits (ds ++ s) = (ds, s) :=
  Prod.ext (Text.takeWhile_append_of_stops hds hs) (Text.dropWhile_append_of_stops hds hs)

theorem digits_spec (s : List Char) :
    s = (digits s).1 ++ (digits s).2 ∧ ∀ c ∈ (digits s).1, isDecimal c = true :=
  ⟨List.takeWhile_append_dropWhile.symm, fun _ hc => (List.mem_takeWhile_imp hc)⟩

theorem decimals_of_digits {s : List Char} (h : (digits s).1 ≠ []) : Decimals (digits s).1 :=
  ⟨h, (digits_spec s).2⟩

theorem Decimals.head_digit {ds : List Char} (h : Decimals ds) (s : List Char) :
    ∃ c r, ds ++ s = c :: r ∧ isDecimal c = true := by
  cases ds with
  | nil => exact absurd rfl h.ne_nil
  | cons c ds => exact ⟨c, ds ++ s, rfl, h.all c List.mem_cons_self⟩

/-- Nothing of a number can follow. -/
structure Cut (s : List Char) : Prop where
  digit : Stops isDecimal s
  point : s.head? ≠ some '.'
  small : s.head? ≠ some 'e'
  large : s.head? ≠ some 'E'

theorem Ends.cut {s : List Char} (h : Ends s) : Cut s := by
  have hhead : ∀ c ∈ s.head?, isDecimal c = false ∧ c ≠ '.' ∧ c ≠ 'e' ∧ c ≠ 'E' := by
    intro c hc
    rcases h c hc with hspace | rfl | rfl | rfl
    · simp only [isSpace, Bool.or_eq_true, decide_eq_true_eq] at hspace
      rcases hspace with ((rfl | rfl) | rfl) | rfl <;> decide
    · decide
    · decide
    · decide
  exact ⟨fun c hc => (hhead c hc).1, fun hc => (hhead _ hc).2.1 rfl, fun hc => (hhead _ hc).2.2.1 rfl,
    fun hc => (hhead _ hc).2.2.2 rfl⟩

/-! ## The parts of a number -/

theorem whole_of_wholeDigits {s : List Char} (h : (wholeDigits s).1 ≠ []) :
    Whole (wholeDigits s).1 ∧ s = (wholeDigits s).1 ++ (wholeDigits s).2 := by
  unfold wholeDigits at h ⊢
  split at h
  · exact ⟨.zero, rfl⟩
  · next hzero =>
    refine ⟨.digits (decimals_of_digits h) fun hhead => ?_, (digits_spec s).1⟩
    obtain ⟨r, hr⟩ := List.head?_eq_some_iff.1 hhead
    have hs := (digits_spec s).1
    rw [hr] at hs
    exact hzero _ hs

theorem wholeDigits_append {ds s : List Char} (h : Whole ds) (hs : Stops isDecimal s) :
    wholeDigits (ds ++ s) = (ds, s) := by
  cases h with
  | zero => rfl
  | digits h hzero =>
    unfold wholeDigits
    split
    · next r heq =>
      cases ds with
      | nil => exact absurd rfl h.ne_nil
      | cons c ds =>
        obtain ⟨rfl, -⟩ := List.cons.inj heq
        exact absurd rfl hzero
    · exact digits_append h.all hs

theorem fraction_spec (s : List Char) :
    ∃ f, Fraction f (fraction s).1 ∧ s = f ++ (fraction s).2 := by
  unfold fraction
  split
  · next r =>
    split
    · exact ⟨[], .none, rfl⟩
    · next h => exact ⟨_, .some (decimals_of_digits h), congrArg ('.' :: ·) (digits_spec r).1⟩
  · exact ⟨[], .none, rfl⟩

theorem fraction_append {f places s : List Char} (h : Fraction f places) (hs : Stops isDecimal s)
    (hpoint : s.head? ≠ some '.') : fraction (f ++ s) = (places, s) := by
  cases h with
  | none =>
    rw [List.nil_append]
    unfold fraction
    split
    · exact absurd rfl hpoint
    · rfl
  | some h =>
    have hdigits := digits_append h.all hs
    simp [fraction, hdigits, h.ne_nil]

theorem signedDigits_eq_some {s rest : List Char} {n : Int} (h : signedDigits s = some (n, rest)) :
    ∃ sign negative ds, Sign sign negative ∧ Decimals ds ∧ s = sign ++ (ds ++ rest) ∧
      n = signed negative (Text.value ds) := by
  have hdigits : ∀ {negative : Bool} {r : List Char}, (if (digits r).1 = [] then none
      else some (if negative then -(Text.value (digits r).1 : Int) else Text.value (digits r).1,
        (digits r).2)) = some (n, rest) →
      ∃ ds, Decimals ds ∧ r = ds ++ rest ∧ n = signed negative (Text.value ds) := by
    intro negative r hr
    by_cases hnil : (digits r).1 = []
    · rw [if_pos hnil] at hr
      exact nomatch hr
    · rw [if_neg hnil] at hr
      obtain ⟨rfl, rfl⟩ := Prod.mk.inj (Option.some.inj hr)
      exact ⟨_, decimals_of_digits hnil, (digits_spec r).1, rfl⟩
  unfold signedDigits at h
  split at h
  next negative r heq =>
  obtain ⟨ds, hds, rfl, rfl⟩ := hdigits h
  split at heq
  · obtain ⟨rfl, rfl⟩ := Prod.mk.inj heq
    exact ⟨['-'], true, ds, .minus, hds, rfl, rfl⟩
  · obtain ⟨rfl, rfl⟩ := Prod.mk.inj heq
    exact ⟨['+'], false, ds, .plus, hds, rfl, rfl⟩
  · obtain ⟨rfl, rfl⟩ := Prod.mk.inj heq
    exact ⟨[], false, ds, .none, hds, rfl, rfl⟩

theorem signedDigits_append {sign ds s : List Char} {negative : Bool} (hsign : Sign sign negative)
    (hds : Decimals ds) (hs : Stops isDecimal s) :
    signedDigits (sign ++ (ds ++ s)) = some (signed negative (Text.value ds), s) := by
  have hdigits := digits_append hds.all hs
  cases hsign with
  | none =>
    obtain ⟨c, r, hc, hdecimal⟩ := hds.head_digit s
    have hminus : c ≠ '-' := by
      rintro rfl
      exact absurd hdecimal (by decide)
    have hplus : c ≠ '+' := by
      rintro rfl
      exact absurd hdecimal (by decide)
    rw [hc] at hdigits
    simp [signedDigits, hc, hminus, hplus, hdigits, hds.ne_nil, signed]
  | plus => simp [signedDigits, hdigits, hds.ne_nil, signed]
  | minus => simp [signedDigits, hdigits, hds.ne_nil, signed]

theorem exponent_spec (s : List Char) :
    ∃ x, Exponent x (exponent s).1 ∧ s = x ++ (exponent s).2 := by
  unfold exponent
  split
  · next c r =>
    split
    · next hc =>
      split
      · next n rest h =>
        obtain ⟨sign, negative, ds, hsign, hds, rfl, rfl⟩ := signedDigits_eq_some h
        exact ⟨_, .some hc hsign hds, by simp⟩
      · exact ⟨[], .none, rfl⟩
    · exact ⟨[], .none, rfl⟩
  · exact ⟨[], .none, rfl⟩

theorem exponent_append {x s : List Char} {power : Option Int} (h : Exponent x power) (hs : Cut s) :
    exponent (x ++ s) = (power, s) := by
  cases h with
  | none =>
    rw [List.nil_append]
    unfold exponent
    split
    · next c r =>
      rw [if_neg]
      rintro (rfl | rfl)
      · exact hs.small rfl
      · exact hs.large rfl
    · rfl
  | some he hsign hds =>
    have hdigits := signedDigits_append hsign hds hs.digit
    simp only [List.cons_append, List.append_assoc, exponent]
    rw [if_pos he, hdigits]

/-- A power of ten does not look like more digits or a fraction. -/
theorem stops_exponent {x s : List Char} {power : Option Int} (h : Exponent x power)
    (hs : Cut s) : Stops isDecimal (x ++ s) ∧ (x ++ s).head? ≠ some '.' := by
  cases h with
  | none => exact ⟨hs.digit, hs.point⟩
  | some he hsign hds =>
    rcases he with rfl | rfl
    · exact ⟨Text.stops_cons.2 (by decide), by simp⟩
    · exact ⟨Text.stops_cons.2 (by decide), by simp⟩

theorem stops_fraction {f places s : List Char} (h : Fraction f places)
    (hs : Stops isDecimal s) : Stops isDecimal (f ++ s) := by
  cases h with
  | none => exact hs
  | some h => exact Text.stops_cons.2 (by decide)

theorem eq_nil_of_fraction {f : List Char} (h : Fraction f []) : f = [] := by
  cases h with
  | none => rfl
  | some h => exact absurd rfl h.ne_nil

/-! ## Numbers -/

/-- What the reader makes of the parts of a number. -/
theorem number_append (start : List Char) (negative : Bool) {ds f x s places : List Char}
    {power : Option Int} (h : Whole ds) (hf : Fraction f places) (hx : Exponent x power) (hs : Cut s) :
    number start negative (ds ++ (f ++ (x ++ s))) =
      if places = [] ∧ power = none then
        match Number.read? ds with
        | none => .error (.tooManyDigits ds.length)
        | some n => .ok (.int (signed negative n), s)
      else
        .ok (.float (Number.ofDecimal negative (Text.value (ds ++ places))
          (power.getD 0 - places.length)), s) := by
  obtain ⟨hstops, hpoint⟩ := stops_exponent hx hs
  have hwhole := wholeDigits_append h (stops_fraction hf hstops)
  have hne : ds ≠ [] := by
    cases h with
    | zero => simp
    | digits h hzero => exact h.ne_nil
  unfold number
  simp only [hwhole, fraction_append hf hstops hpoint, exponent_append hx hs, if_neg hne]
  rfl

theorem numeral_of_number {start s rest : List Char} {negative : Bool} {v : Value}
    (h : number start negative s = .ok (v, rest)) :
    ∃ t, Numeral Number.digitLimit (minus negative ++ t) v ∧ s = t ++ rest := by
  unfold number at h
  have hwhole := @whole_of_wholeDigits s
  cases hs : wholeDigits s with
  | mk ds s₁ =>
    have hfraction := fraction_spec s₁
    cases hs₁ : fraction s₁ with
    | mk places s₂ =>
      have hexponent := exponent_spec s₂
      cases hs₂ : exponent s₂ with
      | mk power s₃ =>
        simp only [hs, hs₁, hs₂] at h hwhole hfraction hexponent
        obtain ⟨f, hf, rfl⟩ := hfraction
        obtain ⟨x, hx, rfl⟩ := hexponent
        by_cases hnil : ds = []
        · rw [if_pos hnil] at h
          exact nomatch h
        obtain ⟨hds, rfl⟩ := hwhole hnil
        rw [if_neg hnil] at h
        by_cases hint : places = [] ∧ power = none
        · obtain ⟨rfl, rfl⟩ := hint
          obtain rfl := eq_nil_of_fraction hf
          cases hx
          rw [if_pos ⟨rfl, rfl⟩] at h
          by_cases hlimit : ds.length ≤ Number.digitLimit
          · rw [Number.read?_eq_some hlimit] at h
            obtain ⟨rfl, rfl⟩ := Prod.mk.inj (Except.ok.inj h)
            exact ⟨ds, .int hds hlimit, rfl⟩
          · have hnone : Number.read? ds = none := if_neg hlimit
            rw [hnone] at h
            exact nomatch h
        · rw [if_neg hint] at h
          obtain ⟨rfl, rfl⟩ := Prod.mk.inj (Except.ok.inj h)
          exact ⟨_, .float hds hf hx hint, by simp⟩

/-! ## Numbers and words -/

/-- A number or a word. -/
inductive Literal (limit : Nat) : List Char → Value → Prop
  | word {w : String} {v : Value} (h : (w, v) ∈ words) : Literal limit w.toList v
  | number {s : List Char} {v : Value} (h : Numeral limit s v) : Literal limit s v

theorem Literal.writes {limit : Nat} {s : List Char} {v : Value} (h : Literal limit s v)
    (room : Nat) : Writes limit room s v := by
  cases h with
  | word h => exact .word h
  | number h => exact .number h

theorem literal_of_scalar {s rest : List Char} {v : Value} (h : scalar s = .ok (v, rest)) :
    ∃ t, Literal Number.digitLimit t v ∧ s = t ++ rest := by
  unfold scalar at h
  split at h
  · next r hword =>
    obtain rfl := Except.ok.inj h
    obtain ⟨⟨w, v'⟩, hmem, hafter⟩ := List.exists_of_findSome?_eq_some hword
    obtain ⟨rest', hrest, hpair⟩ := Option.map_eq_some_iff.1 hafter
    obtain ⟨rfl, rfl⟩ := Prod.mk.inj hpair
    refine ⟨w.toList, .word hmem, ?_⟩
    unfold after? at hrest
    split at hrest
    · next hprefix =>
      obtain rfl := Option.some.inj hrest
      obtain ⟨t, rfl⟩ := List.isPrefixOf_iff_prefix.1 hprefix
      rw [← String.length_toList, List.drop_left]
    · exact nomatch hrest
  · split at h
    · obtain ⟨t, ht, rfl⟩ := numeral_of_number h
      exact ⟨_, .number ht, rfl⟩
    · obtain ⟨t, ht, rfl⟩ := numeral_of_number h
      exact ⟨_, .number ht, rfl⟩

theorem Whole.head {ds : List Char} (h : Whole ds) (s : List Char) :
    ∃ c r, ds ++ s = c :: r ∧ isDecimal c = true := by
  cases h with
  | zero => exact ⟨'0', s, rfl, rfl⟩
  | digits h hzero => exact h.head_digit s

/-- How a number begins. -/
theorem Numeral.head {limit : Nat} {s : List Char} {v : Value} (h : Numeral limit s v)
    (rest : List Char) : ∃ c r, s ++ rest = c :: r ∧ (c = '-' ∨ isDecimal c = true) := by
  have hwhole : ∀ {ds : List Char} (negative : Bool) (t : List Char), Whole ds →
      ∃ c r, minus negative ++ ds ++ t = c :: r ∧ (c = '-' ∨ isDecimal c = true) := by
    intro ds negative t hds
    cases negative with
    | true => exact ⟨'-', ds ++ t, rfl, Or.inl rfl⟩
    | false =>
      obtain ⟨c, r, hc, hdecimal⟩ := hds.head t
      exact ⟨c, r, hc, Or.inr hdecimal⟩
  cases h with
  | @int negative ds h hlimit => exact hwhole negative rest h
  | @float negative ds f x places power h hf hx hnot =>
    obtain ⟨c, r, hc, hhead⟩ := hwhole negative (f ++ (x ++ rest)) h
    exact ⟨c, r, by simpa using hc, hhead⟩

theorem word?_append {w : String} {v : Value} (h : (w, v) ∈ words) (rest : List Char) :
    word? (w.toList ++ rest) = some (v, rest) := by
  simp only [words, List.mem_cons, Prod.mk.injEq, List.not_mem_nil, or_false] at h
  rcases h with ⟨rfl, rfl⟩ | ⟨rfl, rfl⟩ | ⟨rfl, rfl⟩ | ⟨rfl, rfl⟩ | ⟨rfl, rfl⟩ | ⟨rfl, rfl⟩ <;> rfl

theorem after?_cons_of_ne {w : String} {c d : Char} {t s : List Char} (hw : w.toList = d :: t)
    (hne : c ≠ d) : after? w (c :: s) = none := by
  unfold after?
  rw [hw, if_neg]
  simp [List.isPrefixOf, Ne.symm hne]

/-- No word begins with a digit, also after a minus sign. -/
theorem word?_of_decimal {c : Char} (h : isDecimal c = true) (s : List Char) :
    word? (c :: s) = none ∧ word? ('-' :: c :: s) = none := by
  have hne : ∀ d, isDecimal d = false → c ≠ d := by
    rintro d hd rfl
    rw [h] at hd
    exact Bool.noConfusion hd
  have hminus : after? "-Infinity" ('-' :: c :: s) = none := by
    unfold after?
    rw [if_neg]
    simp [List.isPrefixOf, Ne.symm (hne 'I' (by decide))]
  constructor
  · simp only [word?, words, List.findSome?_cons]
    rw [after?_cons_of_ne rfl (hne 'n' (by decide)), after?_cons_of_ne rfl (hne 't' (by decide)),
      after?_cons_of_ne rfl (hne 'f' (by decide)), after?_cons_of_ne rfl (hne 'N' (by decide)),
      after?_cons_of_ne rfl (hne 'I' (by decide)), after?_cons_of_ne rfl (hne '-' (by decide))]
    rfl
  · simp only [word?, words, List.findSome?_cons]
    rw [hminus]
    rfl

/-- What begins with digits is read as a number, with a minus sign or without. -/
theorem scalar_eq_number {ds : List Char} (h : Whole ds) (negative : Bool) (s : List Char) :
    scalar (minus negative ++ (ds ++ s)) =
      number (minus negative ++ (ds ++ s)) negative (ds ++ s) := by
  obtain ⟨c, r, hc, hdecimal⟩ := h.head s
  obtain ⟨hword, hminus⟩ := word?_of_decimal hdecimal r
  rw [hc]
  cases negative with
  | true =>
    have hnone : word? (minus true ++ c :: r) = none := hminus
    unfold scalar
    rw [hnone]
    rfl
  | false =>
    have hnone : word? (minus false ++ c :: r) = none := hword
    unfold scalar
    rw [hnone]
    dsimp only
    split
    · next t ht =>
      obtain ⟨rfl, -⟩ := List.cons.inj ht
      exact absurd hdecimal (by decide)
    · rfl

/-- A number is read as the grammar says, unless it has too many digits. -/
theorem scalar_append {limit : Nat} {t s : List Char} {v : Value} (h : Numeral limit t v)
    (hs : Cut s) : scalar (t ++ s) = .ok (v, s) ∨
      Number.digitLimit < limit ∧ ∃ count, scalar (t ++ s) = .error (.tooManyDigits count) := by
  cases h with
  | @int negative ds h hlimit =>
    have hnumber := number_append (minus negative ++ (ds ++ s)) negative h .none .none hs
    rw [if_pos ⟨rfl, rfl⟩] at hnumber
    rw [List.append_assoc, scalar_eq_number h]
    by_cases hdigits : ds.length ≤ Number.digitLimit
    · rw [Number.read?_eq_some hdigits] at hnumber
      exact Or.inl hnumber
    · have hnone : Number.read? ds = none := if_neg hdigits
      rw [hnone] at hnumber
      exact Or.inr ⟨by omega, _, hnumber⟩
  | @float negative ds f x places power h hf hx hnot =>
    have hnumber := number_append (minus negative ++ (ds ++ (f ++ (x ++ s)))) negative h hf hx hs
    rw [if_neg hnot] at hnumber
    simp only [List.append_assoc]
    rw [scalar_eq_number h]
    exact Or.inl hnumber

end Workbench.Json
