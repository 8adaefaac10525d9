import Workbench.Number.Decimal

/-!
# Written numbers are read back

* `value_repr` : the digits of a number write that number;
* `length_repr_le_digitLimit` : which numbers have few enough digits to be read;
* `lt_digitBound` : a number with few digits is one of them;
* `lt_of_read?` : a number that was read has few digits, whatever script it was written in.
-/

namespace Workbench.Number
open Text (digit? isDigit value)

/-- The digits of the Latin script are the ones with the numbers from 48 on. -/
theorem digit?_of_isDigit {c : Char} (h : c.isDigit = true) : digit? c = some (c.toNat - 48) := by
  have hc : 48 ≤ c.toNat ∧ c.toNat ≤ 57 := by
    simpa [Char.isDigit, UInt32.le_iff_toNat_le] using h
  unfold digit?
  rw [if_pos (by omega), if_pos hc]

theorem value_eq_ofDigitChars {ds : List Char} (h : ∀ c ∈ ds, c.isDigit = true) :
    value ds = Nat.ofDigitChars 10 ds 0 := by
  have hfold : ∀ n, ds.foldl (fun n c => 10 * n + (digit? c).getD 0) n =
      Nat.ofDigitChars 10 ds n := by
    induction ds with
    | nil => exact fun n => Nat.ofDigitChars_nil.symm
    | cons c ds ih =>
      intro n
      rw [List.foldl_cons, digit?_of_isDigit (h c List.mem_cons_self), Nat.ofDigitChars_cons,
        ih (fun d hd => h d (List.mem_cons_of_mem c hd))]
      rfl
  exact hfold 0

theorem isDigit_of_mem_repr {n : Nat} {c : Char} (h : c ∈ n.repr.toList) : isDigit c = true := by
  rw [Nat.toList_repr] at h
  unfold isDigit
  rw [digit?_of_isDigit (Nat.isDigit_of_mem_toDigits (by decide) (by decide) h)]
  rfl

theorem value_repr (n : Nat) : value n.repr.toList = n := by
  rw [Nat.toList_repr, value_eq_ofDigitChars fun c hc =>
    Nat.isDigit_of_mem_toDigits (by decide) (by decide) hc]
  exact Nat.ofDigitChars_ten_toDigits

theorem length_repr_le_iff {n k : Nat} (hk : 0 < k) :
    n.repr.toList.length ≤ k ↔ n < Nat.pow 10 k := by
  rw [Nat.toList_repr]
  exact Nat.length_toDigits_le_iff (by decide) hk

theorem length_repr_le_digitLimit {n : Nat} :
    n.repr.toList.length ≤ digitLimit ↔ n < digitBound := by
  unfold digitBound
  exact length_repr_le_iff (by decide)

theorem lt_digitBound {n k : Nat} (hk : k ≤ digitLimit) (h : n < Nat.pow 10 k) :
    n < digitBound := by
  have hpow : ∀ {l : Nat}, k ≤ l → Nat.pow 10 k ≤ Nat.pow 10 l := Nat.pow_le_pow_right (by decide)
  unfold digitBound
  exact Nat.lt_of_lt_of_le h (hpow hk)

theorem digitBound_pos : 0 < digitBound := lt_digitBound (Nat.zero_le _) Nat.zero_lt_one

theorem text?_eq_none {n : Int} (h : ¬ n.natAbs < digitBound) : text? n = none := if_neg h

/-- A written number is made of digits, behind a minus sign if it is negative. -/
theorem isDigit_or_minus_of_mem_text {n : Int} {c : Char} (h : c ∈ (text n).toList) :
    c.isDigit = true ∨ c = '-' := by
  have hdigits : ∀ m : Nat, c ∈ m.repr.toList → c.isDigit = true := by
    intro m hm
    rw [Nat.toList_repr] at hm
    exact Nat.isDigit_of_mem_toDigits (by decide) (by decide) hm
  cases n with
  | ofNat m => exact .inl (hdigits m h)
  | negSucc m =>
    have htext : text (.negSucc m) = "-" ++ (m + 1).repr := rfl
    rw [htext, String.toList_append, List.mem_append] at h
    exact h.symm.imp (hdigits (m + 1)) List.eq_of_mem_singleton

/-! ## Numbers of any script -/

theorem digit?_lt {c : Char} {d : Nat} (h : digit? c = some d) : d < 10 := by
  unfold digit? at h
  dsimp only at h
  split at h
  · split at h
    · obtain rfl := Option.some.inj h
      omega
    · exact nomatch h
  · obtain ⟨z, hz, rfl⟩ := Option.map_eq_some_iff.1 h
    have hrange := List.find?_some hz
    simp only [Bool.and_eq_true, decide_eq_true_eq] at hrange
    omega

theorem value_lt (ds : List Char) : value ds < Nat.pow 10 ds.length := by
  have hfold : ∀ n, ds.foldl (fun n c => 10 * n + (digit? c).getD 0) n <
      (n + 1) * 10 ^ ds.length := by
    induction ds with
    | nil => intro n; simp
    | cons c ds ih =>
      intro n
      have hdigit : (digit? c).getD 0 < 10 := by
        cases hc : digit? c with
        | none => decide
        | some d => exact digit?_lt hc
      calc
        _ < (10 * n + (digit? c).getD 0 + 1) * 10 ^ ds.length := ih _
        _ ≤ (10 * (n + 1)) * 10 ^ ds.length := Nat.mul_le_mul_right _ (by omega)
        _ = (n + 1) * 10 ^ (c :: ds).length := by
          rw [List.length_cons, Nat.pow_succ, Nat.mul_comm 10 (n + 1), Nat.mul_assoc,
            Nat.mul_comm 10]
  have hvalue := hfold 0
  rwa [Nat.zero_add, Nat.one_mul] at hvalue

theorem lt_of_read? {ds : List Char} {n : Nat} (h : read? ds = some n) : n < digitBound := by
  unfold read? at h
  split at h
  · next hlength =>
    obtain rfl := Option.some.inj h
    exact lt_digitBound hlength (value_lt ds)
  · exact nomatch h

end Workbench.Number
