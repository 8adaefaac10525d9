import Workbench.Proofs.View.StyledText

/-!
# Marks of styles

Strings that hold marks are read character by character.

* `Reading.Comes r cs plain opened mark` : behind so many characters the reading has this text, these
  open styles and this beginning of a mark (`Comes.append`);
* `comes_unmarked`, `comes_mark`, `comes_bracketed` : outside of a mark characters are kept, inside of
  one they are collected;
* `read_unmarked`, `read_enclosed` : what is printed for a string without marks, and for one in a style
  that is opened and closed.
-/

namespace Workbench.StyledText

open Rich (visible Unmarked IsStyle)

namespace Reading

/-- The styles that are open, the last one first. -/
def styles (r : Reading) : List String := r.opened.map (·.1)

/-- The reading comes through characters, and then has this text, these open styles and this
beginning of a mark. -/
def Comes (r : Reading) (cs : List Char) (plain : List Char) (opened : List String)
    (mark : Option (List Char)) : Prop :=
  ∃ r', cs.foldlM next r = .ok r' ∧ r'.text.plain = plain ∧ r'.styles = opened ∧
    r'.mark = mark

theorem Comes.append {r : Reading} {cs cs' plain plain' : List Char} {opened opened' : List String}
    {mark mark' : Option (List Char)} (h : r.Comes cs plain opened mark)
    (h' : ∀ r' : Reading, r'.text.plain = plain → r'.styles = opened → r'.mark = mark →
      r'.Comes cs' plain' opened' mark') : r.Comes (cs ++ cs') plain' opened' mark' := by
  obtain ⟨r', hfold, hplain, hopened, hmark⟩ := h
  obtain ⟨r'', hrest, hend⟩ := h' r' hplain hopened hmark
  refine ⟨r'', ?_, hend⟩
  rw [List.foldlM_append, hfold]
  exact hrest

theorem comes_nil (r : Reading) : r.Comes [] r.text.plain r.styles r.mark :=
  ⟨r, rfl, rfl, rfl, rfl⟩

theorem comes_one {r r' : Reading} {c : Char} (h : r.next c = .ok r') :
    r.Comes [c] r'.text.plain r'.styles r'.mark := by
  refine ⟨r', ?_, rfl, rfl, rfl⟩
  rw [List.foldlM_cons, h]
  rfl

/-- Where no mark begins, the characters are added to the text. -/
theorem comes_unmarked {cs : List Char} (h : '[' ∉ cs) {r : Reading} (hr : r.mark = none) :
    r.Comes cs (r.text.plain ++ visible (String.ofList cs)) r.styles none := by
  induction cs generalizing r with
  | nil => simpa [visible, hr] using comes_nil r
  | cons c cs ih =>
    obtain ⟨hc, hcs⟩ := not_or.1 (mt List.mem_cons.2 h)
    have hnext : r.next c =
        .ok (({ r with position := r.position + 1 } : Reading).addChars [c]) := by
      unfold next
      simp only [hr, if_neg (Ne.symm hc)]
    refine (comes_one hnext).append fun r' hplain hopened hmark => ?_
    have hvisible : visible (String.ofList (c :: cs)) =
        visible (String.ofList [c]) ++ visible (String.ofList cs) := by
      simp only [visible, String.toList_ofList, ← List.filter_append, List.singleton_append]
    have hadded : r'.text.plain = r.text.plain ++ visible (String.ofList [c]) := by
      rw [hplain]
      exact plain_add _ _ _
    rw [hvisible, ← List.append_assoc, ← hadded, ← show r'.styles = r.styles
      from hopened]
    exact ih hcs (hmark.trans hr)

/-- The characters of a mark are collected. -/
theorem comes_mark {cs : List Char} (h : ∀ c ∈ cs, c ∉ ['[', ']']) {r : Reading}
    {mark : List Char} (hr : r.mark = some mark) (hmark : mark ≠ []) :
    r.Comes cs r.text.plain r.styles (some (mark ++ cs)) := by
  induction cs generalizing r mark with
  | nil => simpa [hr] using comes_nil r
  | cons c cs ih =>
    obtain ⟨hc, hcs⟩ := List.forall_mem_cons.1 h
    have hopen : c ≠ '[' := fun he => hc (he ▸ List.mem_cons_self)
    have hclose : c ≠ ']' := fun he => hc (he ▸ List.mem_cons_of_mem _ List.mem_cons_self)
    have hnext : r.next c =
        .ok { r with position := r.position + 1, mark := some (mark ++ [c]) } := by
      unfold next
      simp only [hr, if_neg hopen, if_neg hclose, if_neg hmark]
    refine (comes_one hnext).append fun r' hplain hopened hmark' => ?_
    rw [List.append_cons, ← show r'.text.plain = r.text.plain from hplain,
      ← show r'.styles = r.styles from hopened]
    exact ih hcs hmark' (by simp)

/-- A mark in brackets has its effect at its end. -/
theorem comes_bracketed {c : Char} {cs : List Char} (hc : beginsMark c = true)
    (h : ∀ c ∈ cs, c ∉ ['[', ']']) {r : Reading} (hr : r.mark = none) {plain : List Char}
    {opened : List String}
    (hfinish : ∀ r' : Reading, r'.text.plain = r.text.plain →
      r'.styles = r.styles → ∃ r'', r'.finishMark (c :: cs) = .ok r'' ∧
        r''.text.plain = plain ∧ r''.styles = opened ∧ r''.mark = none) :
    r.Comes ('[' :: c :: (cs ++ [']'])) plain opened none := by
  have hne : c ≠ '[' := by
    rintro rfl
    exact absurd hc (by decide)
  have hopen : r.next '[' = .ok { r with position := r.position + 1, mark := some [] } := by
    unfold next
    simp only [hr, if_pos]
  show r.Comes (['['] ++ c :: (cs ++ [']'])) plain opened none
  refine (comes_one hopen).append fun r₁ hplain₁ hopened₁ hmark₁ => ?_
  have hbegin : r₁.next c = .ok { r₁ with position := r₁.position + 1, mark := some [c] } := by
    unfold next
    simp only [hmark₁, if_neg hne, hc, if_pos]
  show r₁.Comes ([c] ++ (cs ++ [']'])) plain opened none
  refine (comes_one hbegin).append fun r₂ hplain₂ hopened₂ hmark₂ => ?_
  refine (comes_mark h hmark₂ (List.cons_ne_nil c [])).append fun r₃ hplain₃ hopened₃ hmark₃ => ?_
  obtain ⟨r₄, hr₄, hplain₄, hopened₄, hmark₄⟩ := hfinish { r₃ with position := r₃.position + 1 }
    (((hplain₃.trans hplain₂).trans hplain₁)) ((hopened₃.trans hopened₂).trans hopened₁)
  have hclose : r₃.next ']' = .ok r₄ := by
    unfold next
    simp only [hmark₃, List.singleton_append]
    exact hr₄
  rw [← hplain₄, ← hopened₄, ← hmark₄]
  exact comes_one hclose

end Reading

open Reading

theorem not_mem_of_unmarked {s : String} (h : Unmarked s) : '[' ∉ s.toList :=
  fun hmem => (h _ hmem).1 rfl

theorem read_of_comes {s : String} {plain : List Char} {opened : List String}
    (h : ({} : Reading).Comes s.toList plain opened none) :
    ∃ t, read s = .ok t ∧ t.plain = plain := by
  obtain ⟨r, hfold, hplain, -, hmark⟩ := h
  refine ⟨r.text, ?_, hplain⟩
  unfold read
  rw [hfold]
  show Except.ok r.finish = _
  rw [finish, hmark]

theorem read_unmarked {s : String} (h : Unmarked s) : ∃ t, read s = .ok t ∧ t.plain = visible s := by
  have hbegin : ({} : Reading).mark = none := rfl
  have hcomes := comes_unmarked (not_mem_of_unmarked h) hbegin
  rw [String.ofList_toList] at hcomes
  exact read_of_comes hcomes

theorem finishMark_of_open {c : Char} {cs : List Char} (hc : c.isLower = true) (r : Reading) :
    r.finishMark (c :: cs) = .ok { r with
      mark := none, opened := (String.ofList (c :: cs), r.text.length) :: r.opened } := by
  have hslash : c ≠ '/' := by
    rintro rfl
    exact absurd hc (by decide)
  unfold finishMark
  split
  · next he => exact absurd (List.cons.inj he).1 hslash
  · next he => exact absurd (List.cons.inj he).1 hslash
  · rfl

theorem finishMark_of_close {c : Char} {cs : List Char} {r : Reading}
    (h : r.styles = [String.ofList (c :: cs)]) :
    ∃ r', r.finishMark ('/' :: c :: cs) = .ok r' ∧ r'.text.plain = r.text.plain ∧
      r'.styles = [] ∧ r'.mark = none := by
  obtain ⟨⟨style, since⟩, hone, hstyle⟩ := List.map_eq_singleton_iff.1 h
  obtain rfl : style = String.ofList (c :: cs) := hstyle
  refine ⟨({ r with mark := none } : Reading).close (String.ofList (c :: cs)) since, ?_, rfl, ?_, rfl⟩
  · unfold finishMark
    simp [hone]
  · simp [styles, close, hone]

/-- A style that is opened and closed leaves the text between its marks. -/
theorem read_enclosed {style s : String} (hstyle : IsStyle style) (h : Unmarked s) :
    ∃ t, read ("[" ++ style ++ "]" ++ s ++ "[/" ++ style ++ "]") = .ok t ∧ t.plain = visible s := by
  obtain ⟨⟨c, hhead, hlower⟩, hinside⟩ := hstyle
  obtain ⟨cs, hlist⟩ : ∃ cs, style.toList = c :: cs := by
    cases hstyle : style.toList with
    | nil => rw [hstyle] at hhead; exact nomatch hhead
    | cons d cs =>
      rw [hstyle] at hhead
      exact ⟨cs, by rw [Option.some.inj hhead]⟩
  have hplain : ∀ d ∈ c :: cs, d ∉ ['[', ']'] := by
    intro d hd hmem
    refine hinside d (hlist ▸ hd) ?_
    exact (List.Sublist.subset (by decide : ['[', ']'].Sublist ['[', ']', '\\', '=', ':'])) hmem
  have hbegins : beginsMark c = true := by simp [beginsMark, hlower]
  have htext : ("[" ++ style ++ "]" ++ s ++ "[/" ++ style ++ "]").toList =
      ('[' :: c :: (cs ++ [']'])) ++ s.toList ++ ('[' :: '/' :: ((c :: cs) ++ [']'])) := by
    simp only [String.toList_append, hlist]
    simp
  have hopen : ({} : Reading).Comes ('[' :: c :: (cs ++ [']'])) [] [String.ofList (c :: cs)] none := by
    refine comes_bracketed hbegins (List.forall_mem_cons.1 hplain).2 rfl fun r hempty hnone => ?_
    refine ⟨_, finishMark_of_open hlower r, hempty, ?_, rfl⟩
    show String.ofList (c :: cs) :: r.styles = _
    rw [hnone]
    rfl
  have hclose : ∀ {r : Reading}, r.styles = [String.ofList (c :: cs)] → r.mark = none →
      r.Comes ('[' :: '/' :: ((c :: cs) ++ [']'])) r.text.plain [] none := by
    intro r hopened hmark
    refine comes_bracketed (by decide) hplain hmark fun r' hsame hopened' => ?_
    obtain ⟨r'', hfinish, hkept, hclosed, hmark'⟩ := finishMark_of_close (hopened'.trans hopened)
    exact ⟨r'', hfinish, hkept.trans hsame, hclosed, hmark'⟩
  have hinner : ({} : Reading).Comes (('[' :: c :: (cs ++ [']'])) ++ s.toList) (visible s)
      [String.ofList (c :: cs)] none := by
    refine hopen.append fun r hempty hopened hmark => ?_
    have hcomes := comes_unmarked (not_mem_of_unmarked h) hmark
    rwa [hempty, hopened, List.nil_append, String.ofList_toList] at hcomes
  have hcomes : ({} : Reading).Comes (('[' :: c :: (cs ++ [']'])) ++ s.toList ++
      ('[' :: '/' :: ((c :: cs) ++ [']']))) (visible s) [] none := by
    refine hinner.append fun r hs hopened hmark => ?_
    rw [← hs]
    exact hclose hopened hmark
  rw [← htext] at hcomes
  exact read_of_comes hcomes

end Workbench.StyledText
