import Mathlib.Tactic.Choose
import Workbench.Proofs.Json.Printer
import Workbench.Proofs.Number.Shortest

/-!
# What was read is written so that it can be read

A number with a fraction is written in one of five shapes, and each of them is in the grammar.
Whatever number it is read as, the value around it is read again, with its texts as they were.

* `exists_numeral_layout` : the shapes of a number with a fraction;
* `exists_prints_float` : such a number as it is written;
* `separate_paired` : in a text that was read, no two halves make a pair;
* `reread_of_writes` : a value that some text writes, written again.
-/

namespace Workbench.Json

open Number (Layout digitBound digitLimit dropZeros paddedDigits shortestDigits standardLayout)
open Settings (Value)
open Text (CodePoint CodePoints)

/-! ## Numbers with fractions -/

theorem isDecimal_of_mem_toDigits {n : Nat} {c : Char} (h : c ∈ Nat.toDigits 10 n) :
    isDecimal c = true := by
  rw [← Nat.toList_repr] at h
  exact isDecimal_of_mem_repr h

theorem isDecimal_of_mem_zeros {n : Nat} {c : Char} (h : c ∈ List.replicate n '0') :
    isDecimal c = true := by
  rw [List.eq_of_mem_replicate h]
  rfl

theorem Decimals.append {a b : List Char} (hne : a ++ b ≠ []) (ha : ∀ c ∈ a, isDecimal c = true)
    (hb : ∀ c ∈ b, isDecimal c = true) : Decimals (a ++ b) :=
  ⟨hne, fun c hc => (List.mem_append.1 hc).elim (ha c) (hb c)⟩

theorem decimals_paddedDigits (width n : Nat) : Decimals (paddedDigits width n) :=
  .append (List.append_ne_nil_of_right_ne_nil _ Nat.toDigits_ne_nil)
    (fun _ hc => isDecimal_of_mem_zeros hc) fun _ hc => isDecimal_of_mem_toDigits hc

theorem exists_numeral {ds f x places s : List Char} {power : Option Int} (h : Whole ds)
    (hf : Fraction f places) (hx : Exponent x power) (hnot : ¬ (places = [] ∧ power = none))
    (hs : s = ds ++ (f ++ x)) (negative : Bool) :
    ∃ bits, Numeral digitLimit (minus negative ++ s) (.float bits) := by
  rw [hs]
  exact ⟨_, .float h hf hx hnot⟩

/-- A number with a point and nothing after its places. -/
theorem exists_numeral_point {ds places s : List Char} (h : Whole ds) (hplaces : Decimals places)
    (hs : s = ds ++ '.' :: places) (negative : Bool) :
    ∃ bits, Numeral digitLimit (minus negative ++ s) (.float bits) :=
  exists_numeral h (.some hplaces) .none (fun hnot => hplaces.ne_nil hnot.1)
    (by rw [hs, List.append_nil]) negative

theorem exists_sign (e : Int) : ∃ negative, Sign [if e < 0 then '-' else '+'] negative := by
  split
  · exact ⟨true, .minus⟩
  · exact ⟨false, .plus⟩

/-- The text of a decimal number that is not zero is in the grammar, whatever its layout is. One case
for each place of the point: before the digits, behind them, among them, or with an exponent. -/
theorem exists_numeral_layout (l : Layout) {d : Nat} (h : 0 < d) (k : Int) (negative : Bool) :
    ∃ bits, Numeral digitLimit (minus negative ++ l.write d k) (.float bits) := by
  have hall : ∀ c ∈ Nat.toDigits 10 d, isDecimal c = true := fun _ => isDecimal_of_mem_toDigits
  have hne : Nat.toDigits 10 d ≠ [] := Nat.toDigits_ne_nil
  have hhead := head?_toDigits h
  unfold Layout.write
  generalize Nat.toDigits 10 d = ds at hall hne hhead
  have hlength := List.length_pos_iff.2 hne
  -- the first digits do not begin with a zero either, and the others are digits
  have htake : ∀ n, 0 < n → Whole (ds.take n) := fun n hn => by
    refine .digits ⟨fun hnil => ?_, fun c hc => hall c (List.mem_of_mem_take hc)⟩ ?_
    · rcases List.take_eq_nil_iff.1 hnil with rfl | hds
      · exact Nat.lt_irrefl 0 hn
      · exact hne hds
    · rwa [List.head?_take, if_neg (Nat.ne_of_gt hn)]
  have hdrop : ∀ n, n < ds.length → Decimals (ds.drop n) := fun n hn =>
    ⟨fun hnil => Nat.not_lt.2 (List.drop_eq_nil_iff.1 hnil) hn,
      fun c hc => hall c (List.mem_of_mem_drop hc)⟩
  dsimp only
  split
  · split
    · refine exists_numeral_point .zero ?_ rfl negative
      exact .append (List.append_ne_nil_of_right_ne_nil _ hne)
        (fun _ hc => isDecimal_of_mem_zeros hc) hall
    · next hpoint =>
      split
      · have hzeros : Decimals (ds ++ List.replicate k.toNat '0') :=
          .append (List.append_ne_nil_of_left_ne_nil hne _) hall
            fun _ hc => isDecimal_of_mem_zeros hc
        refine exists_numeral_point (.digits hzeros ?_) ?_ rfl negative
        · rwa [List.head?_append_of_ne_nil _ hne]
        · exact ⟨by simp, fun c hc => by rw [List.eq_of_mem_singleton hc]; rfl⟩
      · exact exists_numeral_point (htake _ (by omega)) (hdrop _ (by omega)) rfl negative
  · obtain ⟨minus, hsign⟩ := exists_sign (ds.length + k - 1)
    have hexponent := Exponent.some (.inl rfl) hsign
      (decimals_paddedDigits l.exponentWidth (ds.length + k - 1 : Int).natAbs)
    split
    · exact exists_numeral (htake 1 Nat.one_pos) .none hexponent (fun hnot => nomatch hnot.2)
        (by simp) negative
    · exact exists_numeral (htake 1 Nat.one_pos) (.some (hdrop 1 (by omega))) hexponent
        (fun hnot => nomatch hnot.2) (by simp) negative

theorem not_mem_decimals {ds : List Char} (h : ∀ c ∈ ds, isDecimal c = true) : '\r' ∉ ds :=
  fun hr => absurd (h '\r' hr) (by decide)

theorem not_mem_whole {ds : List Char} (h : Whole ds) : '\r' ∉ ds := by
  cases h with
  | zero => decide
  | digits h hzero => exact not_mem_decimals h.all

theorem not_mem_numeral {limit : Nat} {s : List Char} {v : Value} (h : Numeral limit s v) :
    '\r' ∉ s := by
  have hminus : ∀ negative, '\r' ∉ minus negative := by decide
  cases h with
  | int h hlimit => exact List.not_mem_append (hminus _) (not_mem_whole h)
  | float h hf hx hnot =>
    refine List.not_mem_append (hminus _) (List.not_mem_append (not_mem_whole h)
      (List.not_mem_append ?_ ?_))
    · cases hf with
      | none => exact List.not_mem_nil
      | some h => exact List.not_mem_cons_of_ne_of_not_mem (by decide) (not_mem_decimals h.all)
    · cases hx with
      | none => exact List.not_mem_nil
      | some he hsign h =>
        refine List.not_mem_cons_of_ne_of_not_mem ?_
          (List.not_mem_append ?_ (not_mem_decimals h.all))
        · rcases he with rfl | rfl <;> decide
        · cases hsign <;> decide

/-- The shortest text of a finite number is zero, or the layout of digits that are not. -/
theorem shortest_of_finite {bits : UInt64} {m : Nat} {e : Int}
    (h : (Number.decode bits).magnitude = .finite m e) :
    ∃ digits : List Char, (digits = ['0', '.', '0'] ∨
        ∃ (d : Nat) (k : Int), 0 < d ∧ digits = standardLayout.write d k) ∧
      (Number.shortest bits).toList = minus (Number.decode bits).negative ++ digits := by
  obtain ⟨hlt, he⟩ := Number.decode_finite h
  have hsign : (if (Number.decode bits).negative = true then "-" else "").toList =
      minus (Number.decode bits).negative := by
    cases (Number.decode bits).negative <;> rfl
  unfold Number.shortest
  dsimp only
  split
  · next hother => exact absurd (h.symm.trans hother) nofun
  · next hother => exact absurd (h.symm.trans hother) nofun
  · refine ⟨_, .inl rfl, ?_⟩
    rw [String.toList_append, hsign]
    rfl
  · next m' e' hnot hsame =>
    obtain ⟨rfl, rfl⟩ := Number.Magnitude.finite.inj (h.symm.trans hsame)
    have hm : 0 < m := Nat.pos_of_ne_zero hnot
    have hdigits := Number.dropZeros_pos 20 (shortestDigits m e).2
      (Number.shortestDigits_pos hm hlt he)
    generalize dropZeros 20 (shortestDigits m e).1 (shortestDigits m e).2 = dropped at hdigits ⊢
    refine ⟨_, .inr ⟨dropped.1, dropped.2, hdigits, rfl⟩, ?_⟩
    rw [String.toList_append, hsign, String.toList_ofList]

theorem exists_numeral_shortest {bits : UInt64} {m : Nat} {e : Int}
    (h : (Number.decode bits).magnitude = .finite m e) :
    ∃ bits', Numeral digitLimit (Number.shortest bits).toList (.float bits') := by
  obtain ⟨digits, rfl | ⟨d, k, hd, rfl⟩, htext⟩ := shortest_of_finite h
  · rw [htext]
    exact exists_numeral_point .zero ⟨by decide, List.forall_mem_singleton.2 rfl⟩ rfl _
  · rw [htext]
    exact exists_numeral_layout standardLayout hd k _

/-- The three words for what is no finite number. -/
theorem exists_word {w : String} (h : w ∈ ["NaN", "Infinity", "-Infinity"]) (room : Nat) :
    ∃ bits, Prints (.all w.toList) room (.float bits) := by
  have hword : ∃ bits, (w, .float bits) ∈ words := by
    simp only [List.mem_cons, List.not_mem_nil, or_false] at h
    rcases h with rfl | rfl | rfl
    · exact ⟨UInt64.ofNat Number.notANumberBits, by simp [words]⟩
    · exact ⟨UInt64.ofNat Number.infinityBits, by simp [words]⟩
    · exact ⟨UInt64.ofNat (Number.signBit true + Number.infinityBits), by simp [words]⟩
  have hno : ∀ w ∈ ["NaN", "Infinity", "-Infinity"], '\r' ∉ w.toList := by decide
  obtain ⟨bits, hmem⟩ := hword
  exact ⟨bits, prints_all (.word hmem) (hno w h)⟩

/-- A number with a fraction, or one of the three words, is written as the grammar has it. -/
theorem exists_prints_float (room : Nat) (bits : UInt64) :
    ∃ bits', Prints (.all (writeFloat bits)) room (.float bits') := by
  unfold writeFloat
  split
  · exact exists_word (by decide) room
  · split
    · exact exists_word (by decide) room
    · exact exists_word (by decide) room
  · next m e hmagnitude =>
    obtain ⟨bits', hnumeral⟩ := exists_numeral_shortest hmagnitude
    exact ⟨bits', prints_all (.number hnumeral) (not_mem_numeral hnumeral)⟩

/-! ## Texts -/

theorem isHighHalf_of_ofNat {n : Nat} (h : isHighHalf (CodePoint.ofNat n).toNat = true) :
    isHighHalf n = true := by
  unfold CodePoint.ofNat at h
  split at h
  · next hhalf =>
    rw [toNat_half, isHighHalf_iff] at h
    rw [isHighHalf_iff]
    dsimp only at h
    omega
  · have hcases := toNat_char_cases (Char.ofNat n)
    rw [toNat_char, isHighHalf_iff] at h
    omega

theorem isLowHalf_of_ofNat {n : Nat} (h : isLowHalf (CodePoint.ofNat n).toNat = true) :
    isLowHalf n = true := by
  unfold CodePoint.ofNat at h
  split at h
  · next hhalf =>
    rw [toNat_half, isLowHalf_iff] at h
    rw [isLowHalf_iff]
    dsimp only at h
    omega
  · have hcases := toNat_char_cases (Char.ofNat n)
    rw [toNat_char, isLowHalf_iff] at h
    omega

/-- Characters are no halves. -/
theorem not_isHalf_char (c : Char) :
    isHighHalf (CodePoint.char c).toNat = false ∧ isLowHalf (CodePoint.char c).toNat = false := by
  have hcases := toNat_char_cases c
  rw [toNat_char]
  constructor
  · rw [← Bool.not_eq_true, isHighHalf_iff]
    omega
  · rw [← Bool.not_eq_true, isLowHalf_iff]
    omega

/-- A text begins with a half that ends a pair only if its numbers do. -/
theorem isLowHalf_of_head?_paired {n : Nat} {ns : List Nat} {c : CodePoint}
    (hc : c ∈ (paired (n :: ns)).head?) (h : isLowHalf c.toNat = true) : isLowHalf n = true := by
  cases ns with
  | nil =>
    obtain rfl := Option.some.inj hc
    exact isLowHalf_of_ofNat h
  | cons n' ns =>
    rw [paired] at hc
    split at hc
    · obtain rfl := Option.some.inj hc
      rw [(not_isHalf_char _).2] at h
      exact absurd h Bool.false_ne_true
    · obtain rfl := Option.some.inj hc
      exact isLowHalf_of_ofNat h

/-- Halves that make a pair are put together when a text is read, so none are left. -/
theorem separate_paired (ns : List Nat) : Separate (paired ns) := by
  induction ns using paired.induct with
  | case1 => exact .nil
  | case2 n => exact .singleton _
  | case3 n n' ns hpair ih =>
    rw [paired, if_pos hpair]
    refine List.isChain_cons.2 ⟨fun d _ hboth => ?_, ih⟩
    rw [(not_isHalf_char _).1] at hboth
    exact absurd hboth.1 Bool.false_ne_true
  | case4 n n' ns hpair ih =>
    rw [paired, if_neg hpair]
    refine List.isChain_cons.2 ⟨fun d hd hboth => hpair ?_, ih⟩
    exact Bool.and_eq_true_iff.2
      ⟨isHighHalf_of_ofNat hboth.1, isLowHalf_of_head?_paired hd hboth.2⟩

theorem separate_of_quoted {s : List Char} {t : CodePoints} (h : Quoted s t) : Separate t := by
  cases h with
  | mk hpoints => exact separate_paired _

/-! ## Values -/

/-- A whole number that some text writes has few digits. -/
theorem natAbs_lt_of_whole {negative : Bool} {ds : List Char} (h : ds.length ≤ digitLimit) :
    (signed negative (Text.value ds)).natAbs < digitBound := by
  have hvalue := Number.lt_of_read? (Number.read?_eq_some h)
  cases negative with
  | false => exact hvalue
  | true =>
    rw [signed, if_pos rfl, Int.natAbs_neg]
    exact hvalue

/-- What is read from the text of a value: a value, and the same text if it was one. -/
def Reread (w : Written) (room : Nat) (v : Value) : Prop :=
  ∃ v', Prints w room v' ∧ ∀ t, v = .text t → v' = .text t

theorem Reread.of_prints {w : Written} {room : Nat} {v v' : Value} (h : Prints w room v')
    (hv : ∀ t, v ≠ .text t) : Reread w room v := ⟨v', h, fun t ht => absurd ht (hv t)⟩

/-- A value that some text writes is written so that it can be read again. Induction on the grammar:
the numbers with fractions may be read as other ones. -/
theorem reread_of_writes {room : Nat} {s : List Char} {v : Value} (h : Writes digitLimit room s v)
    {level : Nat} (hroom : level + room ≤ depthLimit) : Reread (write level v) room v := by
  induction h generalizing level with
  | @word room w v h =>
    have hword : v = .null ∨ (∃ b, v = .bool b) ∨ ∃ bits, v = .float bits := by
      simp only [words, List.mem_cons, Prod.mk.injEq, List.not_mem_nil, or_false] at h
      rcases h with ⟨-, rfl⟩ | ⟨-, rfl⟩ | ⟨-, rfl⟩ | ⟨-, rfl⟩ | ⟨-, rfl⟩ | ⟨-, rfl⟩ <;> simp
    rcases hword with rfl | ⟨b, rfl⟩ | ⟨bits, rfl⟩
    · exact .of_prints (prints_write .null hroom) (by simp)
    · exact .of_prints (prints_write .bool hroom) (by simp)
    · obtain ⟨bits', hprints⟩ := exists_prints_float room bits
      exact .of_prints hprints (by simp)
  | number h =>
    cases h with
    | int h hlimit =>
      exact .of_prints (prints_write (.int (natAbs_lt_of_whole hlimit)) hroom) (by simp)
    | float h hf hx hnot =>
      obtain ⟨bits', hprints⟩ := exists_prints_float _ _
      exact .of_prints hprints (by simp)
  | text h =>
    exact ⟨_, prints_write (.text (separate_of_quoted h)) hroom, fun t ht => ht⟩
  | emptyList hb =>
    exact .of_prints (prints_list (g := id) (by omega) fun v hv => absurd hv List.not_mem_nil)
      (by simp)
  | @list room s parts hs h ih =>
    have hitems : ∀ v ∈ parts.map Prod.snd, ∃ v', Prints (write (level + 1) v) room v' :=
      List.forall_mem_map.2 fun p hp => (ih p hp (by omega)).imp fun _ => And.left
    choose! g hg using hitems
    exact .of_prints (prints_list (by omega) hg) (by simp)
  | emptyObject hb =>
    exact .of_prints (prints_object (g := id) (by omega) List.nodup_nil
      (fun _ h => absurd h List.not_mem_nil) fun v hv => absurd hv List.not_mem_nil) (by simp)
  | @object room s members hs hformed h ih =>
    have hvalues : ∀ v ∈ (Record.ofList (members.map Member.field)).values,
        ∃ v', Prints (write (level + 1) v) room v' :=
      Record.forall_values_ofList
        (List.forall_mem_map.2 fun m hm => (ih m hm (by omega)).imp fun _ => And.left)
    have hnames : ∀ name ∈ (Record.ofList (members.map Member.field)).keys, Separate name := by
      refine List.forall_mem_map.2 fun e he => ?_
      obtain ⟨m, hm, rfl⟩ := List.mem_map.1 (Record.mem_of_mem_ofList he)
      exact separate_of_quoted (hformed m hm).name
    choose! g hg using hvalues
    have hnodup := Record.nodup_keys_merge (r := []) List.nodup_nil (members.map Member.field)
    exact .of_prints (prints_object (by omega) hnodup hnames hg) (by simp)

end Workbench.Json
