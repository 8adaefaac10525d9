import Mathlib.Tactic.NormNum
import Mathlib.Tactic.Positivity
import Mathlib.Tactic.Ring
import Workbench.Number.Shortest

/-!
# The shortest digits are there

The digits of a number are sought on one grid of decimal numbers after the other. Some grid has a
point that reads back as the number, and that point is not zero.

* `Interval.of_bounds` : the interval of a number has a middle that is large against its ends;
* `Reaches num den k` : the power of ten `10 ^ k` is at most `num / den`;
* `scale_lt_unit`, `gridPoint?_ne_none` : seventeen digits behind the leading one suffice;
* `shortestDigits_pos`, `dropZeros_pos` : the digits are not zero, with or without the zeros at their
  end.
-/

namespace Workbench.Number

/-! ## The interval -/

/-- What is known of the interval of a number: its ends are at most two units away, and its middle
four units for each step of the significand. -/
structure Interval.Bounds (i : Interval) (unit : Nat) : Prop where
  unit_pos : 0 < unit
  denominator_pos : 0 < i.denominator
  middle_ge : 4 * unit ≤ i.middle
  middle_lt : i.middle < 2 ^ 55 * unit
  below_ge : unit ≤ i.below
  below_le : i.below ≤ 2 * unit
  above_pos : 0 < i.above

theorem Interval.of_bounds {m : Nat} (e : Int) (hpos : 0 < m) (hlt : m < 2 ^ 53) :
    (Interval.of m e).Bounds (2 ^ (e - 2).toNat) := by
  have hunit : 0 < 2 ^ (e - 2).toNat := by positivity
  have hbelow : (Interval.of m e).below = 2 ^ (e - 2).toNat ∨
      (Interval.of m e).below = 2 * 2 ^ (e - 2).toNat := by
    simp only [Interval.of, Nat.pow_eq]
    split_ifs
    · exact .inl rfl
    · exact .inr rfl
  have hmiddle : (Interval.of m e).middle = 4 * m * 2 ^ (e - 2).toNat := rfl
  refine ⟨hunit, Nat.pow_pos (by decide), ?_, ?_, by omega, by omega, ?_⟩
  · rw [hmiddle]
    exact Nat.mul_le_mul_right _ (by omega)
  · rw [hmiddle]
    exact Nat.mul_lt_mul_of_pos_right (by omega) hunit
  · exact Nat.mul_pos (by decide) hunit

/-! ## Grids -/

/-- The power of ten is at most the ratio. -/
def Reaches (num den : Nat) (k : Int) : Prop := den * 10 ^ k.toNat ≤ num * 10 ^ (-k).toNat

theorem reaches_leadingExponent (num den fuel : Nat) (k : Int)
    (hlast : Reaches num den (k - fuel)) : Reaches num den (leadingExponent num den fuel k) := by
  induction fuel generalizing k with
  | zero => simpa [leadingExponent] using hlast
  | succ fuel ih =>
    rw [leadingExponent]
    split
    · next h => exact h
    · refine ih (k - 1) ?_
      have hk : k - 1 - fuel = k - (fuel + 1 : Nat) := by omega
      rwa [hk]

namespace Interval
variable {i : Interval} {unit : Nat}

/-- Zero does not read back as the number. -/
theorem not_contains_zero (h : i.Bounds unit) {den : Nat} (hden : 0 < den) :
    i.contains 0 den = false := by
  have hlow : 0 < (i.middle - i.below) * den := by
    have hunit := h.unit_pos
    have hmiddle := h.middle_ge
    have hbelow := h.below_le
    exact Nat.mul_pos (by omega) hden
  unfold contains
  rw [Nat.zero_mul]
  split
  · simp only [Bool.and_eq_false_imp, decide_eq_true_eq]
    omega
  · simp only [Bool.and_eq_false_imp, decide_eq_true_eq]
    omega

theorem le_roundDiv (num den : Nat) : num / den ≤ roundDiv num den := by
  unfold roundDiv
  dsimp only
  split_ifs <;> omega

theorem gridPoint?_pos (h : i.Bounds unit) {k : Int} {d : Nat} (hd : i.gridPoint? k = some d) :
    0 < d := by
  have hden : 0 < 10 ^ (-k).toNat := by positivity
  -- a whole part that fits is not zero
  have hlow : ∀ low : Nat,
      i.contains (low * 10 ^ k.toNat) (10 ^ (-k).toNat) = true → 0 < low := by
    intro low hfits
    refine Nat.pos_of_ne_zero ?_
    rintro rfl
    rw [Nat.zero_mul, not_contains_zero h hden] at hfits
    exact nomatch hfits
  unfold gridPoint? at hd
  simp only [Nat.pow_eq] at hd
  split at hd
  · next hboth =>
    obtain rfl := Option.some.inj hd
    exact Nat.lt_of_lt_of_le (hlow _ (Bool.and_eq_true_iff.1 hboth).1) (le_roundDiv _ _)
  split at hd
  · next hfits =>
    obtain rfl := Option.some.inj hd
    exact hlow _ hfits
  split at hd
  · obtain rfl := Option.some.inj hd
    exact Nat.succ_pos _
  · exact nomatch hd

/-- A point that is nearer than both ends reads back as the number. -/
theorem contains_of_near {num den : Nat}
    (hlow : (i.middle - i.below) * den < num * i.denominator)
    (hhigh : num * i.denominator < (i.middle + i.above) * den) : i.contains num den = true := by
  unfold contains
  split
  · simp only [Bool.and_eq_true, decide_eq_true_eq]
    exact ⟨Nat.le_of_lt hlow, Nat.le_of_lt hhigh⟩
  · simp only [Bool.and_eq_true, decide_eq_true_eq]
    exact ⟨hlow, hhigh⟩

/-- Seventeen places behind the leading digit, the distance of two points is less than a unit. -/
theorem scale_lt_unit (h : i.Bounds unit) {top k : Int}
    (htop : Reaches i.middle i.denominator top) (hk : k = top - 17) :
    i.denominator * 10 ^ k.toNat < unit * 10 ^ (-k).toNat := by
  have hplus : 0 < 10 ^ (-k).toNat := by positivity
  have hpowers : 10 ^ top.toNat * 10 ^ (-k).toNat =
      10 ^ k.toNat * 10 ^ 17 * 10 ^ (-top).toNat := by
    rw [← pow_add, ← pow_add, ← pow_add]
    congr 1
    omega
  have hscaled : i.denominator * 10 ^ k.toNat * 10 ^ 17 ≤ i.middle * 10 ^ (-k).toNat := by
    refine Nat.le_of_mul_le_mul_right ?_ (by positivity : 0 < 10 ^ (-top).toNat)
    calc i.denominator * 10 ^ k.toNat * 10 ^ 17 * 10 ^ (-top).toNat
        = i.denominator * (10 ^ k.toNat * 10 ^ 17 * 10 ^ (-top).toNat) := by ring
      _ = i.denominator * 10 ^ top.toNat * 10 ^ (-k).toNat := by rw [← hpowers]; ring
      _ ≤ i.middle * 10 ^ (-top).toNat * 10 ^ (-k).toNat := Nat.mul_le_mul_right _ htop
      _ = i.middle * 10 ^ (-k).toNat * 10 ^ (-top).toNat := by ring
  refine Nat.lt_of_mul_lt_mul_right (a := 10 ^ 17) ?_
  calc i.denominator * 10 ^ k.toNat * 10 ^ 17
      ≤ i.middle * 10 ^ (-k).toNat := hscaled
    _ < 2 ^ 55 * unit * 10 ^ (-k).toNat := Nat.mul_lt_mul_of_pos_right h.middle_lt hplus
    _ = unit * 10 ^ (-k).toNat * 2 ^ 55 := by ring
    _ ≤ unit * 10 ^ (-k).toNat * 10 ^ 17 := Nat.mul_le_mul_left _ (by norm_num)

/-- Where the points are as close as that, the one below the number is nearer than the lower end. -/
theorem contains_floor (h : i.Bounds unit) {k : Int}
    (hclose : i.denominator * 10 ^ k.toNat < unit * 10 ^ (-k).toNat) :
    i.contains (i.middle * 10 ^ (-k).toNat / (i.denominator * 10 ^ k.toNat) * 10 ^ k.toNat)
      (10 ^ (-k).toNat) = true := by
  have hscale : 0 < i.denominator * 10 ^ k.toNat := Nat.mul_pos h.denominator_pos (by positivity)
  have hdiv := Nat.div_add_mod (i.middle * 10 ^ (-k).toNat) (i.denominator * 10 ^ k.toNat)
  have hmod := Nat.mod_lt (i.middle * 10 ^ (-k).toNat) hscale
  generalize i.middle * 10 ^ (-k).toNat / (i.denominator * 10 ^ k.toNat) = low at hdiv ⊢
  have hpoint : low * 10 ^ k.toNat * i.denominator = i.denominator * 10 ^ k.toNat * low := by ring
  have hbelow : unit * 10 ^ (-k).toNat ≤ i.below * 10 ^ (-k).toNat :=
    Nat.mul_le_mul_right _ h.below_ge
  have habove : 0 < i.above * 10 ^ (-k).toNat := Nat.mul_pos h.above_pos (by positivity)
  refine contains_of_near ?_ ?_
  · rw [hpoint, Nat.sub_mul]
    have hmiddle : i.below * 10 ^ (-k).toNat ≤ i.middle * 10 ^ (-k).toNat := by
      have hle := h.below_le
      have hge := h.middle_ge
      exact Nat.mul_le_mul_right _ (by omega)
    omega
  · rw [hpoint, Nat.add_mul]
    omega

/-- The grid seventeen places behind the leading digit has a point that reads back as the number. -/
theorem gridPoint?_ne_none (h : i.Bounds unit) {top : Int}
    (htop : Reaches i.middle i.denominator top) : i.gridPoint? (top - 17) ≠ none := by
  have hfits := contains_floor h (scale_lt_unit h htop rfl)
  unfold gridPoint?
  simp only [Nat.pow_eq, hfits, Bool.true_and, if_true]
  split <;> exact Option.some_ne_none _

theorem firstPoint_pos (h : i.Bounds unit) {fuel j : Nat} {k : Int} (hj : j < fuel)
    (hpoint : i.gridPoint? (k - j) ≠ none) : 0 < (i.firstPoint fuel k).1 := by
  induction fuel generalizing j k with
  | zero => exact absurd hj (Nat.not_lt_zero j)
  | succ fuel ih =>
    rw [firstPoint]
    split
    · next d hd => exact gridPoint?_pos h hd
    · next hnone =>
      cases j with
      | zero => exact absurd hnone (by simpa using hpoint)
      | succ j =>
        have hk : k - (j + 1 : Nat) = k - 1 - j := by omega
        exact ih (Nat.lt_of_succ_lt_succ hj) (hk ▸ hpoint)

end Interval

/-! ## Numbers -/

/-- No number is as small as `10 ^ -331`. -/
theorem reaches_least {m : Nat} {e : Int} (hpos : 0 < m) (he : -1074 ≤ e) :
    Reaches (Interval.of m e).middle (Interval.of m e).denominator (-331) := by
  have hmiddle : 1 ≤ (Interval.of m e).middle :=
    Nat.mul_pos (Nat.mul_pos (by decide) hpos) (Nat.pow_pos (by decide))
  have hdenominator : (Interval.of m e).denominator ≤ 10 ^ 331 :=
    calc (Interval.of m e).denominator = 2 ^ (2 - e).toNat := rfl
      _ ≤ 2 ^ (23 * 47) := pow_le_pow_right₀ (by decide) (by omega)
      _ = (2 ^ 23) ^ 47 := pow_mul 2 23 47
      _ ≤ (10 ^ 7) ^ 47 := Nat.pow_le_pow_left (by norm_num) 47
      _ = 10 ^ (7 * 47) := (pow_mul 10 7 47).symm
      _ ≤ 10 ^ 331 := pow_le_pow_right₀ (by decide) (by decide)
  have hminus : (-331 : Int).toNat = 0 := rfl
  have hplus : (-(-331) : Int).toNat = 331 := rfl
  rw [Reaches, hminus, hplus, pow_zero, Nat.mul_one]
  exact hdenominator.trans (Nat.le_mul_of_pos_left _ hmiddle)

/-- The shortest digits of a number that is not zero are not zero. -/
theorem shortestDigits_pos {m : Nat} {e : Int} (hpos : 0 < m) (hlt : m < 2 ^ 53)
    (he : -1074 ≤ e) : 0 < (shortestDigits m e).1 := by
  have hbounds := Interval.of_bounds e hpos hlt
  have htop := reaches_leadingExponent (Interval.of m e).middle (Interval.of m e).denominator 640
    309 (reaches_least hpos he)
  exact Interval.firstPoint_pos hbounds (by decide : 17 < 18) (Interval.gridPoint?_ne_none hbounds htop)

theorem dropZeros_pos (fuel : Nat) {d : Nat} (k : Int) (h : 0 < d) : 0 < (dropZeros fuel d k).1 := by
  induction fuel generalizing d k with
  | zero => exact h
  | succ fuel ih =>
    rw [dropZeros]
    split
    · exact ih (k + 1) (by omega)
    · exact h

/-- The significand and the exponent of a finite number are within their bounds. -/
theorem decode_finite {bits : UInt64} {m : Nat} {e : Int}
    (h : (decode bits).magnitude = .finite m e) : m < 2 ^ 53 ∧ -1074 ≤ e := by
  have hfraction : bits.toNat % 2 ^ 52 < 2 ^ 52 := Nat.mod_lt _ (by positivity)
  simp only [decode, Nat.pow_eq] at h
  split_ifs at h with hspecial hfraction hleast
  · obtain ⟨rfl, rfl⟩ := Magnitude.finite.inj h
    exact ⟨by omega, Int.le_refl _⟩
  · obtain ⟨rfl, rfl⟩ := Magnitude.finite.inj h
    constructor <;> omega

end Workbench.Number
