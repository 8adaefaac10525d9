import Workbench.Template

/-!
# Templates that have only faults of their own

A template may reach things from which it asks what cannot be had: a place in a text that is no
number, or a layout for what has none. Without places and layouts it never does.

* `IsSimple s` : a template in which neither a bracket opens a place nor a colon a layout;
* `isSimple_of_mem_pieces` : its fields have no places and no layouts, and its mistakes are not those
  of layouts;
* `isInTemplate_of_expand` : if it has no text, the fault is one of the template.
-/

namespace Workbench.Template

open Text (CodePoint CodePoints)

/-- Neither a bracket nor a colon stands in a template. -/
def IsSimple (s : CodePoints) : Prop := CodePoint.char '[' ∉ s ∧ CodePoint.char ':' ∉ s

instance (s : CodePoints) : Decidable (IsSimple s) :=
  inferInstanceAs (Decidable (CodePoint.char '[' ∉ s ∧ CodePoint.char ':' ∉ s))

theorem isSimple_cons {c : CodePoint} {s : CodePoints} :
    IsSimple (c :: s) ↔ (c ≠ .char '[' ∧ c ≠ .char ':') ∧ IsSimple s := by
  unfold IsSimple
  simp only [List.mem_cons, not_or, ne_eq, eq_comm]
  exact and_and_and_comm

/-! ## Pieces -/

/-- A field without places and without a layout, or a mistake that is not one of a layout. -/
def Piece.IsSimple : Piece → Prop
  | .char _ => True
  | .field f => f.layout = [] ∧ CodePoint.char '[' ∉ f.name
  | .wrong m => ∀ e, m ≠ .layout e

/-- What was read has no bracket, and no layout is being read. -/
def Mode.IsSimple : Mode → Prop
  | .text | .afterOpen | .afterClose => True
  | .name read | .conversion read | .afterConversion read _ => CodePoint.char '[' ∉ read
  | .place _ | .layout _ _ _ _ => False

theorem isSimple_plainField {read : CodePoints} (h : CodePoint.char '[' ∉ read)
    (conversion : Option CodePoint) : (plainField read conversion).IsSimple :=
  ⟨rfl, fun hmem => h (List.mem_reverse.1 hmem)⟩

theorem isSimple_of_mem_piecesFrom (mode : Mode) {s : CodePoints} (hmode : mode.IsSimple)
    (hs : IsSimple s) : ∀ p ∈ piecesFrom mode s, p.IsSimple := by
  have hone : ∀ {p : Piece}, p.IsSimple → ∀ q ∈ [p], q.IsSimple := fun hp q hq =>
    List.eq_of_mem_singleton hq ▸ hp
  have hwrong : ∀ {m : Mistake}, (∀ e, m ≠ .layout e) → (Piece.wrong m).IsSimple := id
  -- Induction on the rest of the template. Only a bracket or a colon leads to the modes in which a
  -- place or a layout is read.
  induction s generalizing mode with
  | nil =>
    cases mode with
    | text => exact fun p hp => absurd hp List.not_mem_nil
    | place | layout => exact absurd hmode id
    | _ => exact hone (hwrong fun e => nofun)
  | cons c s ih =>
    obtain ⟨⟨hplace, hcolon⟩, hs⟩ := isSimple_cons.1 hs
    have htext : ∀ {p : Piece}, p.IsSimple → ∀ q ∈ p :: piecesFrom .text s, q.IsSimple :=
      fun hp => List.forall_mem_cons.2 ⟨hp, ih .text trivial hs⟩
    have hname : ∀ {read : CodePoints}, CodePoint.char '[' ∉ read →
        ∀ q ∈ piecesFrom (.name (c :: read)) s, q.IsSimple := fun hread =>
      ih (.name _) (List.not_mem_cons_of_ne_of_not_mem (Ne.symm hplace) hread) hs
    cases mode with
    | text =>
      rw [piecesFrom]
      split
      · exact ih .afterOpen trivial hs
      · split
        · exact ih .afterClose trivial hs
        · exact htext trivial
    | afterClose =>
      rw [piecesFrom]
      split
      · exact htext trivial
      · exact hone (hwrong fun e => nofun)
    | afterOpen =>
      rw [piecesFrom, if_neg hcolon, if_neg hplace]
      split
      · exact htext trivial
      · split
        · exact htext (isSimple_plainField List.not_mem_nil none)
        · split
          · exact ih (.conversion []) List.not_mem_nil hs
          · exact hname List.not_mem_nil
    | name read =>
      rw [piecesFrom, if_neg hcolon, if_neg hplace]
      split
      · exact hone (hwrong fun e => nofun)
      · split
        · exact htext (isSimple_plainField hmode none)
        · split
          · exact ih (.conversion read) hmode hs
          · exact hname hmode
    | conversion read => exact ih (.afterConversion read c) hmode hs
    | afterConversion read conversion =>
      rw [piecesFrom, if_neg hcolon]
      split
      · exact htext (isSimple_plainField hmode (some conversion))
      · exact hone (hwrong fun e => nofun)
    | place | layout => exact absurd hmode id

theorem isSimple_of_mem_pieces {s : CodePoints} (h : IsSimple s) : ∀ p ∈ pieces s, p.IsSimple :=
  isSimple_of_mem_piecesFrom .text trivial h

/-! ## Faults -/

theorem isInTemplate_mistake {m : Mistake} (h : ∀ e, m ≠ .layout e) :
    (Fault.mistake m).isInTemplate = true := by
  cases m with
  | layout e => exact absurd rfl (h e)
  | _ => rfl

theorem indexFrom_eq_error {n : Nat} {s : CodePoints} {m : Mistake}
    (h : indexFrom n s = .error m) : m = .tooManyDigits := by
  induction s generalizing n with
  | nil => exact nomatch h
  | cons c s ih =>
    rw [indexFrom] at h
    split at h
    · exact nomatch h
    · split at h
      · exact (Except.error.inj h).symm
      · exact ih h

theorem index?_eq_error {s : CodePoints} {m : Mistake} (h : index? s = .error m) :
    m = .tooManyDigits := by
  unfold index? at h
  split at h
  · exact nomatch h
  · exact indexFrom_eq_error h

theorem isInTemplate_of_fieldValue {values : String → Option String} {name : CodePoints}
    {fault : Fault} (h : fieldValue values name = .error fault) : fault.isInTemplate = true := by
  unfold fieldValue at h
  split at h
  · next m hm =>
    obtain rfl := Except.error.inj h
    obtain rfl := index?_eq_error hm
    rfl
  · obtain rfl := Except.error.inj h
    rfl
  · split at h
    · obtain rfl := Except.error.inj h
      rfl
    · split at h
      · obtain rfl := Except.error.inj h
        rfl
      · exact nomatch h

theorem isInTemplate_missing (t : Thing) (name : CodePoints) :
    (t.missing name).isInTemplate = true := by
  unfold Thing.missing
  split
  · split <;> rfl
  · rfl

/-- A name that leads nowhere is a fault of the template, whatever thing it would lead on from. -/
theorem isInTemplate_of_atName {t : Thing} {name : CodePoints} {fault : Fault}
    (h : atName t name = .error fault) : fault.isInTemplate = true := by
  unfold atName at h
  split at h
  · obtain rfl := Except.error.inj h
    rfl
  · split at h
    · exact nomatch h
    · obtain rfl := Except.error.inj h
      exact isInTemplate_missing _ _

theorem isInTemplate_of_follow {t : Thing} (access : Access) {s : CodePoints} {fault : Fault}
    (haccess : ∀ read, access ≠ .place read) (hs : CodePoint.char '[' ∉ s)
    (h : follow t access s = .error fault) : fault.isInTemplate = true := by
  induction s generalizing t access with
  | nil =>
    cases access with
    | none => exact nomatch h
    | place read => exact absurd rfl (haccess read)
    | name read => exact isInTemplate_of_atName h
  | cons c s ih =>
    have hc := List.ne_of_not_mem_cons hs
    have hrest := List.not_mem_of_not_mem_cons hs
    cases access with
    | none =>
      rw [follow, if_neg (Ne.symm hc)] at h
      split at h
      · exact ih (.name []) (fun read => nofun) hrest h
      · obtain rfl := Except.error.inj h
        rfl
    | place read => exact absurd rfl (haccess read)
    | name read =>
      rw [follow] at h
      split at h
      · split at h
        · next hname =>
          obtain rfl := Except.error.inj h
          exact isInTemplate_of_atName hname
        · rw [if_neg (Ne.symm hc)] at h
          exact ih (.name []) (fun read => nofun) hrest h
      · exact ih (.name (c :: read)) (fun read => nofun) hrest h

theorem isInTemplate_of_convert {conversion : Option CodePoint} {t : Thing} {fault : Fault}
    (h : convert conversion t = .error fault) : fault.isInTemplate = true := by
  unfold convert at h
  split at h
  case h_6 =>
    obtain rfl := Except.error.inj h
    rfl
  all_goals exact nomatch h

theorem bind_eq_error {α β : Type} {x : Except Fault α} {f : α → Except Fault β} {fault : Fault}
    (h : (x >>= f) = .error fault) : x = .error fault ∨ ∃ a, x = .ok a ∧ f a = .error fault := by
  cases x with
  | error e => exact .inl (congrArg Except.error (Except.error.inj h))
  | ok a => exact .inr ⟨a, rfl, h⟩

theorem isInTemplate_of_expandField {values : String → Option String}
    {inner : CodePoints → Except Fault CodePoints} {f : Field} {fault : Fault}
    (hf : (Piece.field f).IsSimple) (h : expandField values inner f = .error fault) :
    fault.isInTemplate = true := by
  obtain ⟨hlayout, hname⟩ := hf
  have hrest : CodePoint.char '[' ∉ f.name.drop (f.name.takeWhile (!beginsAccess ·)).length :=
    fun hmem => hname (List.mem_of_mem_drop hmem)
  unfold expandField at h
  rw [hlayout] at h
  rcases bind_eq_error h with hvalue | ⟨t, -, h⟩
  · exact isInTemplate_of_fieldValue hvalue
  rcases bind_eq_error h with hfollow | ⟨t, -, h⟩
  · exact isInTemplate_of_follow .none (fun read => nofun) hrest hfollow
  rcases bind_eq_error h with hconvert | ⟨t, -, h⟩
  · exact isInTemplate_of_convert hconvert
  · -- An empty layout leaves a thing as it is shown.
    dsimp only at h
    rw [if_neg List.not_mem_nil] at h
    have hshown : t.layOut [] = .ok t.shown := if_pos rfl
    exact nomatch hshown.symm.trans h

theorem isInTemplate_of_expandPieces {values : String → Option String}
    {inner : CodePoints → Except Fault CodePoints} {ps : List Piece} {fault : Fault}
    (hps : ∀ p ∈ ps, p.IsSimple) (h : expandPieces values inner ps = .error fault) :
    fault.isInTemplate = true := by
  induction ps with
  | nil => exact nomatch h
  | cons p ps ih =>
    obtain ⟨hp, hothers⟩ := List.forall_mem_cons.1 hps
    cases p with
    | wrong m =>
      obtain rfl := Except.error.inj h
      exact isInTemplate_mistake hp
    | char c =>
      rw [expandPieces] at h
      split at h
      · exact nomatch h
      · next hrest =>
        obtain rfl := Except.error.inj h
        exact ih hothers hrest
    | field f =>
      rw [expandPieces] at h
      split at h
      · next hfield =>
        obtain rfl := Except.error.inj h
        exact isInTemplate_of_expandField hp hfield
      · split at h
        · exact nomatch h
        · next hrest =>
          obtain rfl := Except.error.inj h
          exact ih hothers hrest

/-- A template without places and layouts has a text, or a fault of its own. -/
theorem isInTemplate_of_expand {values : String → Option String} {s : CodePoints} {fault : Fault}
    (hs : IsSimple s) (h : expand values s = .error fault) : fault.isInTemplate = true :=
  isInTemplate_of_expandPieces (isSimple_of_mem_pieces hs) h

end Workbench.Template
