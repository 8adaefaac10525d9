import Workbench.Proofs.Text.Lines
import Workbench.View.StyledText

/-!
# Spans of styled texts

* `Span.Within s n` : a span of a text of `n` characters, perhaps an empty one;
* `Spanned t` : all spans of a text are such spans (`Spanned.add`, `Spanned.append`,
  `spanned_joinWith`);
* `plain_joinWith`, `spans_joinWith` : texts put together have the characters of all, with line feeds
  between them, and the spans of each, moved to where it begins.
-/

namespace Workbench

/-- A span whose ends are in a text of so many characters, in their order. -/
structure Span.Within (s : Span) (n : Nat) : Prop where
  start_nonneg : 0 ≤ s.start
  start_le_stop : s.start ≤ s.stop
  stop_le : s.stop ≤ n

theorem Span.Within.shift {s : Span} {n : Nat} (h : s.Within n) {k m : Nat} (hm : k + n ≤ m) :
    (s.shift k).Within m := by
  obtain ⟨hstart, hordered, hstop⟩ := h
  constructor <;> simp only [Span.shift] <;> omega

theorem Span.Within.mono {s : Span} {n m : Nat} (h : s.Within n) (hm : n ≤ m) : s.Within m :=
  ⟨h.start_nonneg, h.start_le_stop, Int.le_trans h.stop_le (Int.ofNat_le.2 hm)⟩

namespace StyledText

open Rich (movesCursor visible spanIf joinWith)

/-! ## Characters -/

/-- A string of characters of which none moves the cursor is shown as it is. -/
theorem visible_eq {s : String} {cs : List Char} (hs : s.toList = cs)
    (h : ∀ c ∈ cs, movesCursor c = false) : visible s = cs := by
  unfold visible
  rw [hs, List.filter_eq_self]
  intro c hc
  rw [h c hc]
  rfl

theorem movesCursor_of_isDigit {c : Char} (h : c.isDigit = true) : movesCursor c = false := by
  simp only [Char.isDigit, Bool.and_eq_true, decide_eq_true_eq, ge_iff_le,
    UInt32.le_iff_toNat_le] at h
  have hlow : 48 ≤ c.toNat := h.1
  simp only [movesCursor, Bool.or_eq_false_iff, decide_eq_false_iff_not]
  omega

theorem not_mem_visible {s : String} {c : Char} (h : c ∉ s.toList) : c ∉ visible s :=
  fun hc => h (List.mem_filter.1 hc).1

theorem length_visible_le (s : String) : (visible s).length ≤ s.length := by
  rw [← String.length_toList]
  exact List.length_filter_le _ _

@[simp] theorem length_append (t u : StyledText) : (t ++ u).length = t.length + u.length :=
  List.length_append

@[simp] theorem length_add (t : StyledText) (s style : String) :
    (t.add s style).length = t.length + (visible s).length := by
  rw [length, plain_add, List.length_append]
  rfl

/-! ## Styles and spans of the operations -/

@[simp] theorem style_append (t u : StyledText) : (t ++ u).style = t.style := rfl

@[simp] theorem style_add (t : StyledText) (s style : String) : (t.add s style).style = t.style := by
  unfold add
  split <;> rfl

@[simp] theorem style_stylize (t : StyledText) (style : String) (start stop : Int) :
    (t.stylize style start stop).style = t.style := by
  unfold stylize
  dsimp only
  split <;> rfl

theorem spans_add (t : StyledText) {s : String} (style : String) (h : s ≠ "") :
    (t.add s style).spans = t.spans ++ spanIf style t.length (t.length + (visible s).length) := by
  rw [add, if_neg h]

theorem spans_append (t : StyledText) {u : StyledText} (h : u.style = "") :
    (t ++ u).spans = t.spans ++ u.spans.map (·.shift t.length) := by
  show t.spans ++ spanIf u.style _ _ ++ _ = _
  rw [h, spanIf, if_pos rfl, List.append_nil]

theorem stylize_of_nonneg (t : StyledText) (style : String) {start stop : Int} (hstart : 0 ≤ start)
    (hstop : 0 ≤ stop) : t.stylize style start stop =
      if start < t.length ∧ start < stop then
        { t with spans := t.spans ++ [{ start, stop := min (t.length : Int) stop, style }] }
      else t := by
  have hposition : ∀ {i : Int}, 0 ≤ i → Rich.position t.length i = i :=
    fun h => if_neg (Int.not_lt.2 h)
  unfold stylize
  rw [hposition hstart, hposition hstop]

/-- All spans of a text lie in it. -/
def Spanned (t : StyledText) : Prop := ∀ span ∈ t.spans, span.Within t.length

theorem spanned_empty : Spanned {} := fun _ h => absurd h List.not_mem_nil

theorem within_of_mem_spanIf {style : String} {start stop : Nat} (h : start ≤ stop) {span : Span}
    (hspan : span ∈ spanIf style start stop) : span.Within stop := by
  unfold spanIf at hspan
  split at hspan
  · exact absurd hspan List.not_mem_nil
  · obtain rfl := List.mem_singleton.1 hspan
    exact ⟨Int.natCast_nonneg start, Int.ofNat_le.2 h, Int.le_refl _⟩

theorem Spanned.add {t : StyledText} (h : Spanned t) (s style : String) :
    Spanned (t.add s style) := by
  by_cases hs : s = ""
  · rw [StyledText.add, if_pos hs]
    exact h
  · intro span hspan
    rw [length_add]
    rw [spans_add t style hs] at hspan
    rcases List.mem_append.1 hspan with hold | hnew
    · exact (h span hold).mono (Nat.le_add_right _ _)
    · exact within_of_mem_spanIf (Nat.le_add_right _ _) hnew

theorem Spanned.append {t u : StyledText} (h : Spanned t) (hu : Spanned u) (hstyle : u.style = "") :
    Spanned (t ++ u) := by
  intro span hspan
  rw [length_append]
  rw [spans_append t hstyle] at hspan
  rcases List.mem_append.1 hspan with hleft | hright
  · exact (h span hleft).mono (Nat.le_add_right _ _)
  · obtain ⟨inner, hinner, rfl⟩ := List.mem_map.1 hright
    exact (hu inner hinner).shift (Nat.le_refl _)

/-! ## Texts put together -/

theorem add_append {t u : StyledText} (hu : u.style = "") (s style : String) :
    (t ++ u).add s style = t ++ u.add s style := by
  by_cases hs : s = ""
  · rw [add, add, if_pos hs, if_pos hs]
  · have hspan : (spanIf style u.length (u.length + (visible s).length)).map (·.shift ↑t.length) =
        spanIf style (t ++ u).length ((t ++ u).length + (visible s).length) := by
      rw [length_append]
      unfold spanIf
      split
      · rfl
      · simp only [List.map_cons, List.map_nil, Span.shift, List.cons.injEq, Span.mk.injEq,
          and_true]
        omega
    refine StyledText.ext ?_ (style_add _ _ _) ?_
    · simp
    · rw [spans_add _ _ hs, spans_append _ ((style_add u s style).trans hu), spans_add _ _ hs,
        spans_append _ hu, List.map_append, hspan, List.append_assoc]

theorem append_assoc {t u v : StyledText} (hu : u.style = "") (hv : v.style = "") :
    t ++ u ++ v = t ++ (u ++ v) := by
  have hshift : ∀ span : Span, (span.shift ↑u.length).shift ↑t.length = span.shift ↑(t ++ u).length := by
    intro span
    rw [length_append]
    simp only [Span.shift, Span.mk.injEq, and_true]
    omega
  refine StyledText.ext ?_ rfl ?_
  · simp
  · rw [spans_append _ hv, spans_append _ hu, spans_append _ ((style_append u v).trans hu),
      spans_append _ hv, List.map_append, List.map_map, List.append_assoc]
    simp only [Function.comp_def, hshift]

/-- A text after another one, on a line of its own. -/
def below (t u : StyledText) : StyledText := t.add "\n" ++ u

theorem plain_below (t u : StyledText) : (t.below u).plain = t.plain ++ '\n' :: u.plain := by
  rw [below, plain_append, plain_add, List.append_assoc]
  rfl

theorem length_below (t u : StyledText) : (t.below u).length = t.length + 1 + u.length := by
  rw [below, length_append, length_add]
  rfl

theorem spans_below (t : StyledText) {u : StyledText} (h : u.style = "") :
    (t.below u).spans = t.spans ++ u.spans.map (·.shift ↑(t.length + 1)) := by
  have hlength : (t.add "\n").length = t.length + 1 := length_add t "\n" ""
  rw [below, spans_append _ h, hlength, spans_add t "" (by decide), spanIf, if_pos rfl,
    List.append_nil]

theorem empty_append {t : StyledText} (h : t.style = "") : ({} : StyledText) ++ t = t := by
  have hshift : (fun s : Span => s.shift 0) = id := by
    funext s
    simp [Span.shift]
  show StyledText.mk t.plain "" (spanIf t.style _ _ ++ t.spans.map (·.shift 0)) = t
  rw [hshift, List.map_id, h, spanIf, if_pos rfl, ← h]
  rfl

theorem append_empty (t : StyledText) : t ++ ({} : StyledText) = t := by
  refine StyledText.ext (List.append_nil _) rfl ?_
  rw [spans_append _ rfl]
  exact List.append_nil _

theorem joinWith_cons {t : StyledText} (h : t.style = "") (ts : List StyledText) :
    joinWith "\n" (t :: ts) = ts.foldl below t := by
  show ts.foldl below ({} ++ t) = _
  rw [empty_append h]

theorem foldl_below_append {t u : StyledText} (hu : u.style = "") {ts : List StyledText}
    (h : ∀ v ∈ ts, v.style = "") : ts.foldl below (t ++ u) = t ++ ts.foldl below u := by
  induction ts generalizing u with
  | nil => rfl
  | cons v ts ih =>
    obtain ⟨hv, hts⟩ := List.forall_mem_cons.1 h
    have hbelow : (t ++ u).below v = t ++ u.below v := by
      rw [below, add_append hu, append_assoc ((style_add u "\n" "").trans hu) hv, below]
    have hstyle : (u.below v).style = "" := by
      rw [below, style_append, style_add, hu]
    rw [List.foldl_cons, List.foldl_cons, hbelow, ih hstyle hts]

/-- To put texts together behind another one, a line feed is added to it first. -/
theorem joinWith_cons_cons {t u : StyledText} {ts : List StyledText}
    (h : ∀ v ∈ t :: u :: ts, v.style = "") :
    joinWith "\n" (t :: u :: ts) = t.add "\n" ++ joinWith "\n" (u :: ts) := by
  obtain ⟨ht, hts⟩ := List.forall_mem_cons.1 h
  obtain ⟨hu, hts⟩ := List.forall_mem_cons.1 hts
  rw [joinWith_cons ht, joinWith_cons hu, List.foldl_cons, below, foldl_below_append hu hts]

theorem style_joinWith {ts : List StyledText} (h : ∀ t ∈ ts, t.style = "") :
    (joinWith "\n" ts).style = "" := by
  have hfold : ∀ (ts : List StyledText) (t : StyledText), (ts.foldl below t).style = t.style := by
    intro ts
    induction ts with
    | nil => exact fun _ => rfl
    | cons u ts ih =>
      intro t
      rw [List.foldl_cons, ih, below, style_append, style_add]
  cases ts with
  | nil => rfl
  | cons t ts => rw [joinWith_cons (h t List.mem_cons_self), hfold, h t List.mem_cons_self]

theorem plain_foldl_below (ts : List StyledText) (t : StyledText) :
    (ts.foldl below t).plain = t.plain ++ (ts.map plain).flatMap ('\n' :: ·) := by
  induction ts generalizing t with
  | nil => simp
  | cons u ts ih => rw [List.foldl_cons, ih, plain_below]; simp

/-- The spans of texts, each below the one before it. -/
def spansFrom (ts : List StyledText) (start : Nat) : List Span :=
  (ts.mapIdx fun i t =>
    t.spans.map (·.shift ↑(start + Text.startOf (ts.map plain) i))).flatten

theorem spansFrom_cons (t : StyledText) (ts : List StyledText) (start : Nat) :
    spansFrom (t :: ts) start =
      t.spans.map (·.shift ↑start) ++ spansFrom ts (start + t.length + 1) := by
  have hstart : ∀ i, start + Text.startOf ((t :: ts).map plain) (i + 1) =
      start + t.length + 1 + Text.startOf (ts.map plain) i := by
    intro i
    rw [List.map_cons, Text.startOf_succ]
    show start + (t.length + 1 + _) = _
    omega
  unfold spansFrom
  rw [List.mapIdx_cons, List.flatten_cons]
  simp only [hstart]
  rfl

theorem spans_foldl_below {ts : List StyledText} (h : ∀ u ∈ ts, u.style = "") (t : StyledText) :
    (ts.foldl below t).spans = t.spans ++ spansFrom ts (t.length + 1) := by
  induction ts generalizing t with
  | nil => exact (List.append_nil _).symm
  | cons u ts ih =>
    obtain ⟨hu, hts⟩ := List.forall_mem_cons.1 h
    rw [List.foldl_cons, ih hts, spans_below t hu, spansFrom_cons, length_below, List.append_assoc]

theorem plain_joinWith {ts : List StyledText} (h : ∀ t ∈ ts, t.style = "") :
    (joinWith "\n" ts).plain = Text.joinWith '\n' (ts.map plain) := by
  cases ts with
  | nil => rfl
  | cons t ts =>
    rw [joinWith_cons (h t List.mem_cons_self), plain_foldl_below, List.map_cons,
      Text.joinWith_cons]

/-- Each text keeps its spans, which are moved to where it begins. -/
theorem spans_joinWith {ts : List StyledText} (h : ∀ t ∈ ts, t.style = "") :
    (joinWith "\n" ts).spans = (ts.mapIdx fun i t =>
      t.spans.map (·.shift ↑(Text.startOf (ts.map plain) i))).flatten := by
  have hfrom : (joinWith "\n" ts).spans = spansFrom ts 0 := by
    cases ts with
    | nil => rfl
    | cons t ts =>
      obtain ⟨ht, hts⟩ := List.forall_mem_cons.1 h
      have hshift : t.spans.map (·.shift ↑(0 : Nat)) = t.spans := by simp [Span.shift]
      rw [joinWith_cons ht, spans_foldl_below hts, spansFrom_cons, hshift, Nat.zero_add]
  rw [hfrom, spansFrom]
  simp only [Nat.zero_add]

theorem spanned_joinWith {ts : List StyledText} (h : ∀ t ∈ ts, t.style = "")
    (hspanned : ∀ t ∈ ts, Spanned t) : Spanned (joinWith "\n" ts) := by
  intro span hspan
  rw [spans_joinWith h] at hspan
  obtain ⟨spans, hspans, hspan⟩ := List.mem_flatten.1 hspan
  obtain ⟨i, hi, rfl⟩ := List.mem_mapIdx.1 hspans
  obtain ⟨inner, hinner, rfl⟩ := List.mem_map.1 hspan
  have hplain : (ts.map plain)[i]? = some ts[i].plain := by
    rw [List.getElem?_map, List.getElem?_eq_getElem hi]
    rfl
  obtain ⟨before, after, hjoined, hbefore⟩ := Text.joinWith_eq_append '\n' hplain
  have hlength : (joinWith "\n" ts).length = before.length + ts[i].length + after.length := by
    rw [length, plain_joinWith h, hjoined, List.length_append, List.length_append]
    rfl
  -- the span lies in its own text, and what stands before that text is as long as it was moved
  refine (hspanned ts[i] (List.getElem_mem hi) inner hinner).shift ?_
  rw [hlength, hbefore]
  exact Nat.le_add_right _ _

end StyledText

end Workbench
