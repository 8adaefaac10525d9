import Workbench.Proofs.Diagnostic.Grammar

/-!
# Where the rest of a line begins

Every shape has a fixed number of colons, and the last of them stands before the rest of the line. So
the colons tell where the rest begins, whatever it says:

* `Shape.colons` : the number of colons of a shape;
* `Writes.exists_head` : a text of a shape is a head with these colons and a rest, and any other rest
  would do as well;
* `append_colon_eq` : two ways to cut a text at a colon;
* `not_writes_of_suffix` : where a line ends with the last colon of a shape, the shape is not in it.
-/

namespace Workbench.Diagnostic
open Text (isBlank isDigit)

/-- The number of colons of a shape, the one before the rest of the line included. -/
def Shape.colons : Shape → Nat
  | .located => 4
  | .line | .errorAt => 1
  | .called | .errorLine => 2

/-! ## Parts without a colon -/

theorem not_mem_of_class {p : Char → Bool} {s : List Char} (h : ∀ c ∈ s, p c = true) {c : Char}
    (hc : p c = false) : c ∉ s := by
  intro hm
  rw [h c hm] at hc
  exact Bool.noConfusion hc

theorem Digits.count_colon {ds : List Char} (h : Digits ds) : ds.count ':' = 0 :=
  List.count_eq_zero.2 (not_mem_of_class h.2 (by decide))

theorem Blanks.count_colon {gap : List Char} (h : Blanks gap) : gap.count ':' = 0 :=
  List.count_eq_zero.2 (not_mem_of_class h (by decide))

theorem Spells.count_colon {word s : List Char} (h : Spells word s)
    (hword : word.all (fun letter => !isLetter letter ':') = true) : s.count ':' = 0 := by
  refine List.count_eq_zero.2 ?_
  induction h with
  | nil => exact List.not_mem_nil
  | cons hletter _ ih =>
    rw [List.all_cons, Bool.and_eq_true] at hword
    rw [List.mem_cons, not_or]
    refine ⟨?_, ih hword.2⟩
    rintro rfl
    rw [hletter] at hword
    exact Bool.noConfusion hword.1

theorem IsSeverity.count_colon {w : List Char} (h : IsSeverity w) : w.count ':' = 0 := by
  rcases h with h | h
  · exact h.count_colon (by decide)
  · exact h.count_colon (by decide)

theorem IsLineNumber.count_colon {x ds : List Char} (h : IsLineNumber x ds) : x.count ':' = 0 := by
  obtain ⟨w, gap, hw, hgap, hds, rfl⟩ := h
  simp only [List.count_append, hw.count_colon (by decide), hgap.2.count_colon, hds.count_colon]

theorem IsColumnNumber.count_colon {x ds : List Char} (h : IsColumnNumber x ds) :
    x.count ':' = 0 := by
  obtain ⟨gap, w, gap', hgap, hw, hgap', hds, rfl⟩ := h
  rw [List.count_cons_of_ne (by decide)]
  simp only [List.count_append, hgap.count_colon, hw.count_colon (by decide),
    hgap'.2.count_colon, hds.count_colon]

/-! ## Heads -/

theorem Writes.rest_ne_nil {shape : Shape} {s : List Char} {f : Fields} (h : Writes shape s f) :
    f.rest ≠ [] := by
  cases h <;> assumption

/-- A text of a shape is a head and a rest. The head has all colons of the shape but the one between
the two, and it says the same whatever the rest is. -/
theorem Writes.exists_head {shape : Shape} {s : List Char} {f : Fields} (h : Writes shape s f) :
    ∃ head, s = head ++ ':' :: f.rest ∧ head.count ':' + 1 = shape.colons ∧
      ∀ rest, rest ≠ [] → Writes shape (head ++ ':' :: rest) { f with rest } := by
  cases h with
  | @located line column gap word rest hline hcolumn hgap hword =>
    refine ⟨':' :: (line ++ ':' :: (column ++ ':' :: (gap ++ word))), by simp, ?_, ?_⟩
    · simp [hline.count_colon, hcolumn.count_colon, hgap.count_colon, hword.count_colon, Shape.colons]
    · intro rest' hrest
      simpa using Writes.located hline hcolumn hgap hword hrest
  | @line x line rest hline =>
    refine ⟨x, rfl, by rw [hline.count_colon]; rfl, ?_⟩
    intro rest' hrest
    exact .line hline hrest
  | @errorAt w gap at_ gap' x line rest hw hgap hat hgap' hline =>
    refine ⟨w ++ (gap ++ (at_ ++ (gap' ++ x))), by simp, ?_, ?_⟩
    · simp [hw.count_colon (by decide), hgap.2.count_colon, hat.count_colon (by decide),
        hgap'.2.count_colon, hline.count_colon, Shape.colons]
    · intro rest' hrest
      simpa using Writes.errorAt hw hgap hat hgap' hline hrest
  | @errorAtColumn w gap at_ gap' x line y column rest hw hgap hat hgap' hline hcolumn =>
    refine ⟨w ++ (gap ++ (at_ ++ (gap' ++ (x ++ y)))), by simp, ?_, ?_⟩
    · simp [hw.count_colon (by decide), hgap.2.count_colon, hat.count_colon (by decide),
        hgap'.2.count_colon, hline.count_colon, hcolumn.count_colon, Shape.colons]
    · intro rest' hrest
      simpa using Writes.errorAtColumn hw hgap hat hgap' hline hcolumn hrest
  | @called line gap word rest hline hgap hword =>
    refine ⟨'(' :: (line ++ ')' :: ':' :: (gap ++ word)), by simp, ?_, ?_⟩
    · simp [hline.count_colon, hgap.count_colon, hword.count_colon, Shape.colons]
    · intro rest' hrest
      simpa using Writes.called hline hgap hword hrest
  | @errorLine w gap x line rest hw hgap hline =>
    refine ⟨w ++ ':' :: (gap ++ x), by simp, ?_, ?_⟩
    · simp [hw.count_colon (by decide), hgap.count_colon, hline.count_colon, Shape.colons]
    · intro rest' hrest
      simpa using Writes.errorLine hw hgap hline hrest

theorem Writes.count_colon {shape : Shape} {s : List Char} {f : Fields} (h : Writes shape s f) :
    s.count ':' = shape.colons + f.rest.count ':' := by
  obtain ⟨head, rfl, hcount, -⟩ := h.exists_head
  rw [List.count_append, List.count_cons_self]
  omega

/-- Of two ways to cut a text at a colon, the one at the first colon is the shorter one. -/
theorem append_colon_eq {p q y t : List Char} (hp : ':' ∉ p) (h : p ++ ':' :: q = y ++ ':' :: t) :
    y = p ∨ ∃ z, y = p ++ ':' :: z ∧ q = z ++ ':' :: t := by
  rcases List.append_eq_append_iff.1 h with ⟨z, hy, hz⟩ | ⟨z, hp', hz⟩
  · cases z with
    | nil => exact Or.inl (by rw [hy, List.append_nil])
    | cons c z =>
      obtain ⟨rfl, hq⟩ := List.cons.inj hz
      exact Or.inr ⟨z, hy, hq⟩
  · cases z with
    | nil => exact Or.inl (by rw [hp', List.append_nil])
    | cons c z =>
      obtain ⟨rfl, -⟩ := List.cons.inj hz
      exact absurd (by rw [hp']; simp) hp

/-- A text that ends with the last colon of a shape leaves no rest to anything in it. -/
theorem not_writes_of_suffix {shape : Shape} {s t : List Char} {f : Fields}
    (hcount : s.count ':' = shape.colons) (hend : s.getLast? = some ':') (ht : t <:+ s) :
    ¬ Writes shape t f := by
  intro h
  have hle : t.count ':' ≤ s.count ':' := ht.sublist.count_le ':'
  -- the last colon of the text would be in the rest
  have hlast : f.rest.getLast? = some ':' := by
    obtain ⟨before, hs⟩ := h.rest_suffix.trans ht
    rwa [← hs, List.getLast?_append_of_ne_nil _ h.rest_ne_nil] at hend
  have hrest : 0 < f.rest.count ':' := List.count_pos_iff.2 (List.mem_of_getLast? hlast)
  rw [h.count_colon] at hle
  omega

end Workbench.Diagnostic
