import Mathlib.Data.List.TakeWhile
import Workbench.Template

/-!
# Templates that are taken as they are written

* `IsLiteral s` : a text without braces;
* `doubled s` : a text with its braces written twice;
* `expand_append_of_literal`, `expand_append_of_doubled` : texts without braces and those with their
  braces doubled stand for what they are, wherever they stand in a template;
* `IsPlain name`, `expand_append_of_plain` : a field with nothing but a name stands for its value;
* `expand_escape` : the template that `escape` gives for a text has that text.

What follows in the template decides whether there is a text at all, and it is never read together
with what was put in before it.
-/

namespace Workbench.Template

open Text (CodePoint CodePoints)

/-- A text in which no brace stands. -/
def IsLiteral (s : CodePoints) : Prop := CodePoint.char '\x7b' ∉ s ∧ CodePoint.char '\x7d' ∉ s

instance (s : CodePoints) : Decidable (IsLiteral s) :=
  inferInstanceAs (Decidable (CodePoint.char '\x7b' ∉ s ∧ CodePoint.char '\x7d' ∉ s))

theorem isLiteral_cons {c : CodePoint} {s : CodePoints} :
    IsLiteral (c :: s) ↔ (c ≠ .char '\x7b' ∧ c ≠ .char '\x7d') ∧ IsLiteral s := by
  unfold IsLiteral
  simp only [List.mem_cons, not_or, ne_eq, eq_comm]
  exact and_and_and_comm

/-! ## Characters -/

theorem pieces_append_of_literal {s : CodePoints} (h : IsLiteral s) (t : CodePoints) :
    pieces (s ++ t) = s.map Piece.char ++ pieces t := by
  induction s with
  | nil => rfl
  | cons c s ih =>
    obtain ⟨⟨hopen, hclose⟩, hs⟩ := isLiteral_cons.1 h
    have hstep : pieces (c :: (s ++ t)) = .char c :: pieces (s ++ t) := by
      unfold pieces
      rw [piecesFrom, if_neg hopen, if_neg hclose]
    rw [List.cons_append, hstep, ih hs]
    rfl

/-- A code point as it is written in a template: a brace twice. -/
def doubledPoint (c : CodePoint) : CodePoints :=
  if c = .char '\x7b' ∨ c = .char '\x7d' then [c, c] else [c]

/-- The template of any text, which may have halves of surrogate pairs. -/
def doubled (s : CodePoints) : CodePoints := s.flatMap doubledPoint

theorem doubled_cons (c : CodePoint) (s : CodePoints) :
    doubled (c :: s) = doubledPoint c ++ doubled s := rfl

theorem pieces_doubledPoint (c : CodePoint) (t : CodePoints) :
    pieces (doubledPoint c ++ t) = .char c :: pieces t := by
  unfold doubledPoint
  split
  · next hbrace => rcases hbrace with rfl | rfl <;> rfl
  · next hbrace =>
    have hliteral : IsLiteral [c] := by
      unfold IsLiteral
      simp only [List.mem_singleton]
      exact ⟨fun h => hbrace (.inl h.symm), fun h => hbrace (.inr h.symm)⟩
    exact pieces_append_of_literal hliteral t

theorem pieces_append_of_doubled (s t : CodePoints) :
    pieces (doubled s ++ t) = s.map Piece.char ++ pieces t := by
  induction s with
  | nil => rfl
  | cons c s ih =>
    rw [doubled_cons, List.append_assoc, pieces_doubledPoint, ih]
    rfl

/-- The template of a string is written with the braces of the string twice. -/
theorem ofString_escape (s : String) :
    CodePoints.ofString (escape s) = doubled (CodePoints.ofString s) := by
  have hpoint : ∀ c : Char, doubledPoint (.char c) = (escapeChar c).map .char := by
    intro c
    unfold doubledPoint escapeChar
    simp only [CodePoint.char.injEq]
    split
    · rfl
    · rfl
  unfold escape doubled CodePoints.ofString
  rw [String.toList_ofList, List.map_flatMap, List.flatMap_map]
  simp only [hpoint]

theorem expandPieces_append_of_chars (values : String → Option String)
    (inner : CodePoints → Except Fault CodePoints) (s : CodePoints) (ps : List Piece) :
    expandPieces values inner (s.map Piece.char ++ ps) =
      (expandPieces values inner ps).map (s ++ ·) := by
  induction s with
  | nil => cases h : expandPieces values inner ps <;> simp [h, Except.map]
  | cons c s ih =>
    rw [List.map_cons, List.cons_append, expandPieces, ih]
    cases expandPieces values inner ps <;> rfl

section Expand
variable (values : String → Option String)

theorem expand_append_of_literal {s : CodePoints} (h : IsLiteral s) (t : CodePoints) :
    expand values (s ++ t) = (expand values t).map (s ++ ·) := by
  unfold expand expandDepth
  rw [pieces_append_of_literal h, expandPieces_append_of_chars]

theorem expand_append_of_doubled (s t : CodePoints) :
    expand values (doubled s ++ t) = (expand values t).map (s ++ ·) := by
  unfold expand expandDepth
  rw [pieces_append_of_doubled, expandPieces_append_of_chars]

theorem expand_nil : expand values [] = .ok [] := rfl

/-- A text without braces is its own template. -/
theorem expand_of_literal {s : CodePoints} (h : IsLiteral s) : expand values s = .ok s := by
  have happend := expand_append_of_literal values h []
  rwa [expand_nil, List.append_nil, Except.map, List.append_nil] at happend

/-- Whatever the fields stand for, an escaped text has the text that was escaped. -/
theorem expand_escape (s : String) :
    expand values (CodePoints.ofString (escape s)) = .ok (CodePoints.ofString s) := by
  have happend := expand_append_of_doubled values (CodePoints.ofString s) []
  rw [ofString_escape]
  rwa [expand_nil, List.append_nil, Except.map, List.append_nil] at happend

end Expand

/-! ## Fields -/

/-- What ends a name or leads on from it. -/
def endsName : List CodePoint :=
  ['\x7b', '\x7d', '[', '.', '!', ':'].map .char

/-- A name that is no number and that nothing leads on from. -/
structure IsPlain (name : String) : Prop where
  ne_empty : name ≠ ""
  noNumber : index? (CodePoints.ofString name) = .ok none
  noEnd : ∀ c ∈ CodePoints.ofString name, c ∉ endsName

theorem mem_endsName {c : CodePoint} : c ∈ endsName ↔ c = .char '\x7b' ∨ c = .char '\x7d' ∨
    c = .char '[' ∨ c = .char '.' ∨ c = .char '!' ∨ c = .char ':' := by
  simp [endsName]

theorem piecesFrom_name {name : CodePoints} (h : ∀ c ∈ name, c ∉ endsName)
    (read t : CodePoints) : piecesFrom (.name read) (name ++ .char '\x7d' :: t) =
      plainField (name.reverse ++ read) none :: pieces t := by
  induction name generalizing read with
  | nil => rfl
  | cons c name ih =>
    have hc := h c List.mem_cons_self
    simp only [mem_endsName, not_or] at hc
    obtain ⟨hopen, hclose, hplace, -, hconversion, hlayout⟩ := hc
    rw [List.cons_append, piecesFrom, if_neg hopen, if_neg hclose, if_neg hlayout,
      if_neg hconversion, if_neg hplace, ih fun d hd => h d (List.mem_cons_of_mem c hd),
      List.reverse_cons, List.append_assoc]
    rfl

/-- A template that begins with a field of this name. -/
def fieldOf (name : String) : CodePoints :=
  .char '\x7b' :: (CodePoints.ofString name ++ [.char '\x7d'])

theorem pieces_append_of_plain {name : String} (h : IsPlain name) (t : CodePoints) :
    pieces (fieldOf name ++ t) =
      .field { name := CodePoints.ofString name, conversion := none, layout := [] } ::
        pieces t := by
  obtain ⟨c, rest, hname⟩ := List.exists_cons_of_ne_nil
    (show CodePoints.ofString name ≠ [] by simpa [CodePoints.ofString] using h.ne_empty)
  have hends := h.noEnd
  rw [hname] at hends
  have hc := hends c List.mem_cons_self
  simp only [mem_endsName, not_or] at hc
  obtain ⟨hopen, hclose, hplace, -, hconversion, hlayout⟩ := hc
  have hrest := piecesFrom_name (fun d hd => hends d (List.mem_cons_of_mem c hd)) [c] t
  unfold pieces fieldOf
  rw [hname, List.cons_append, piecesFrom, if_pos rfl, List.cons_append, List.cons_append,
    piecesFrom, if_neg hopen, if_neg hclose, if_neg hlayout, if_neg hconversion, if_neg hplace,
    List.append_assoc, List.singleton_append, hrest]
  simp [plainField, pieces]

theorem expandField_of_plain {values : String → Option String}
    {inner : CodePoints → Except Fault CodePoints} {name value : String} (h : IsPlain name)
    (hvalue : values name = some value) :
    expandField values inner
        { name := CodePoints.ofString name, conversion := none, layout := [] } =
      .ok (CodePoints.ofString value) := by
  have hwhole : (CodePoints.ofString name).takeWhile (!beginsAccess ·) =
      CodePoints.ofString name := by
    rw [List.takeWhile_eq_self_iff]
    intro c hc
    have hends := h.noEnd c hc
    simp only [mem_endsName, not_or] at hends
    simp [beginsAccess, hends]
  have hempty : CodePoints.ofString name ≠ [] := by
    simpa [CodePoints.ofString] using h.ne_empty
  have hfield : fieldValue values (CodePoints.ofString name) = .ok (.text value) := by
    unfold fieldValue
    rw [h.noNumber]
    dsimp only
    rw [if_neg hempty, CodePoints.toString?_ofString, Option.bind_some, hvalue]
  unfold expandField
  dsimp only
  rw [hwhole, hfield, List.drop_length]
  rfl

/-- A plain field is replaced by its value, and the value is not read as a template. -/
theorem expand_append_of_plain {values : String → Option String} {name value : String}
    (h : IsPlain name) (hvalue : values name = some value) (t : CodePoints) :
    expand values (fieldOf name ++ t) =
      (expand values t).map (CodePoints.ofString value ++ ·) := by
  unfold expand expandDepth
  rw [pieces_append_of_plain h, expandPieces, expandField_of_plain h hvalue]
  dsimp only
  cases expandPieces values _ (pieces t) <;> rfl

end Workbench.Template
