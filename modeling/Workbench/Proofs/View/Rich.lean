import Workbench.Proofs.View.Marks

/-!
# What can be seen of texts

What a view looks like depends only on what is documented of texts, so that it looks the same whatever
the texts are.

* `Rich.seen t` : what can be seen of a text, as a styled text;
* `seen_of`, `seen_add`, `seen_append`, `seen_stylize` : the operations on texts do what those on styled
  texts do;
* `Reads τ s cs`, `Displays τ s` : what is printed and shown for a string;
* `LawfulRich StyledText` : styled texts do all that is documented.
-/

namespace Workbench

namespace Rich

variable {τ : Type} [Rich τ]

/-- What can be seen of a text. -/
def seen (t : τ) : StyledText := ⟨plain t, style t, spans t⟩

@[simp] theorem plain_seen (t : τ) : (seen t).plain = plain t := rfl

@[simp] theorem spans_seen (t : τ) : (seen t).spans = spans t := rfl

/-- These characters are printed for a string. -/
def Reads (τ : Type) [Rich τ] (s : String) (cs : List Char) : Prop :=
  ∃ t : τ, read s = .ok t ∧ plain t = cs

/-- The marks in a string can be read where it is printed. -/
def Readable (τ : Type) [Rich τ] (s : String) : Prop := ∃ t : τ, read s = .ok t

/-- A widget can show a string. -/
def Displays (τ : Type) [Rich τ] (s : String) : Prop := ∃ t : τ, display s = .ok t

theorem Reads.unique {s : String} {cs cs' : List Char} (h : Reads τ s cs) (h' : Reads τ s cs') :
    cs = cs' := by
  obtain ⟨t, ht, rfl⟩ := h
  obtain ⟨t', ht', rfl⟩ := h'
  obtain rfl := Except.ok.inj (ht.symm.trans ht')
  rfl

section
variable [LawfulRich τ]

theorem seen_of (s style : String) : seen (of s style : τ) = StyledText.of s style := by
  unfold seen
  rw [LawfulRich.plain_of, LawfulRich.style_of, LawfulRich.spans_of]
  rfl

theorem seen_add (t : τ) (s style : String) : seen (add t s style) = (seen t).add s style := by
  unfold seen
  rw [LawfulRich.plain_add, LawfulRich.style_add, LawfulRich.spans_add, LawfulRich.length_eq]
  unfold StyledText.add
  split
  · next h =>
    subst h
    simp [visible]
  · rfl

theorem seen_append (t u : τ) : seen (append t u) = seen t ++ seen u := by
  unfold seen
  rw [LawfulRich.plain_append, LawfulRich.style_append, LawfulRich.spans_append,
    LawfulRich.length_eq, LawfulRich.length_eq]
  rfl

theorem seen_stylize (t : τ) {style : String} (h : style ≠ "") (start stop : Int) :
    seen (stylize t style start stop) = (seen t).stylize style start stop := by
  unfold seen
  rw [LawfulRich.plain_stylize, LawfulRich.style_stylize, LawfulRich.spans_stylize t h,
    LawfulRich.length_eq]
  exact apply_ite (StyledText.mk (plain t) (Rich.style t)) _ _ _

theorem seen_joinWith (separator : String) (ts : List τ) :
    seen (joinWith separator ts) = joinWith separator (ts.map seen) := by
  have hfold : ∀ (ts : List τ) (t : τ),
      seen (ts.foldl (fun joined u => append (add joined separator) u) t) =
        (ts.map seen).foldl (fun joined u => joined.add separator ++ u) (seen t) := by
    intro ts
    induction ts with
    | nil => exact fun _ => rfl
    | cons u ts ih =>
      intro t
      rw [List.foldl_cons, ih, seen_append, seen_add]
      rfl
  cases ts with
  | nil => exact seen_of "" ""
  | cons t ts =>
    show seen (ts.foldl _ (append (of "") t)) = _
    rw [hfold, seen_append, seen_of]
    rfl

theorem Unmarked.reads {s : String} (h : Unmarked s) : Reads τ s (visible s) :=
  LawfulRich.read_unmarked h

end

end Rich

instance : LawfulRich StyledText where
  length_eq _ := rfl
  plain_of _ _ := rfl
  style_of _ _ := rfl
  spans_of _ _ := rfl
  plain_add := StyledText.plain_add
  style_add := StyledText.style_add
  spans_add t s style := by
    show (t.add s style).spans = _
    unfold StyledText.add
    split <;> rfl
  plain_append _ _ := rfl
  style_append _ _ := rfl
  spans_append _ _ := rfl
  plain_stylize := StyledText.plain_stylize
  style_stylize := StyledText.style_stylize
  spans_stylize t style _ start stop := by
    show (t.stylize style start stop).spans = _
    unfold StyledText.stylize
    exact apply_ite StyledText.spans _ _ _
  read_unmarked := StyledText.read_unmarked
  read_enclosed hstyle h _ := StyledText.read_enclosed hstyle h
  display_unmarked := StyledText.read_unmarked

end Workbench
