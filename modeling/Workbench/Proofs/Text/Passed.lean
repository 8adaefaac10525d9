import Mathlib.Data.List.TakeWhile
import Workbench.Text.CodePoint

/-!
# What is passed for a text

* `passed_eq_text` : a text without halves is passed as it is, and no other one is;
* `ofString_shown` : such a text is shown as it is;
* `exists_passed_never_iff` : the texts that cannot be passed.
-/

namespace Workbench.Text.CodePoints

theorem ofString_shown {s : CodePoints} (h : ∀ c ∈ s, c.isHalf = false) : ofString s.shown = s := by
  have hshown : ∀ c ∈ s, CodePoint.char c.shown = c := by
    intro c hc
    cases c with
    | char c => rfl
    | half n => exact absurd (h _ hc) (by simp [CodePoint.isHalf, CodePoint.char?])
  unfold ofString shown
  rw [String.toList_ofList, List.map_map]
  exact (List.map_congr_left hshown).trans (List.map_id s)

theorem eq_ofString_of_toString? {s : CodePoints} {t : String} (h : s.toString? = some t) :
    s = ofString t := by
  obtain ⟨cs, hcs, rfl⟩ := Option.map_eq_some_iff.1 h
  unfold ofString
  rw [String.toList_ofList]
  clear h
  induction s generalizing cs with
  | nil =>
    obtain rfl := Option.some.inj hcs
    rfl
  | cons c s ih =>
    rw [List.mapM_cons] at hcs
    cases c with
    | half n => exact nomatch hcs
    | char c =>
      cases hrest : s.mapM CodePoint.char? with
      | none =>
        rw [hrest] at hcs
        exact nomatch hcs
      | some rest =>
        rw [hrest] at hcs
        obtain rfl := Option.some.inj hcs
        exact congrArg (CodePoint.char c :: ·) (ih rest hrest)

/-- Only a text without halves is passed as a text. -/
theorem passed_eq_text {s : CodePoints} {t : String} :
    s.passed = .text t ↔ s = ofString t := by
  unfold passed
  constructor
  · intro h
    split at h
    · next u _ hu =>
      obtain rfl := Passed.text.inj h
      exact eq_ofString_of_toString? hu
    · exact absurd h (by simp)
    · exact absurd h (by simp)
  · rintro rfl
    rw [toString?_ofString]

@[simp] theorem passed_ofString (s : String) : (ofString s).passed = .text s :=
  passed_eq_text.2 rfl

theorem exists_lost_iff {s : CodePoints} :
    (∃ h, s.lost? = some h) ↔ ∃ c ∈ s, c.isLost = true := by
  have hnone : s.lost? = none ↔ s.dropWhile (!·.isLost) = [] := by
    unfold lost?
    cases s.dropWhile (!·.isLost) <;> simp
  rw [← Option.isSome_iff_exists, Option.isSome_iff_ne_none, Ne, hnone, List.dropWhile_eq_nil_iff]
  simp

/-- The texts of which nothing is passed are those with a half that stands for no byte. -/
theorem exists_passed_never_iff {s : CodePoints} :
    (∃ h, s.passed = .never h) ↔ ∃ c ∈ s, c.isLost = true := by
  rw [← exists_lost_iff]
  unfold passed
  cases hs : s.toString? with
  | none => cases s.lost? <;> simp
  | some t =>
    obtain rfl := eq_ofString_of_toString? hs
    simp [exists_lost_iff, ofString, CodePoint.isLost, CodePoint.isHalf, CodePoint.char?]

end Workbench.Text.CodePoints
