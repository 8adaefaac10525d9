import Workbench.Proofs.Json.Printer

/-!
# What is written of a value that cannot be written

A whole number with too many digits ends the writing, wherever in the value it stands, and so do what
has no JSON and a list or an object that lies too deep.

* `Obstructs o level v` : such an obstacle stands in a value that is written at a level;
* `filled fill level v` : the value with the number `fill` in the place of each obstacle;
* `StopsBefore s whole` : the text `s` ends where the texts `whole fill` go on with `fill`;
* `obstructs_of_write`, `complete_write` : what stops the writing stands in the value, and a value is
  written to its end exactly if nothing does;
* `stopsBefore_render` : otherwise the text ends before an obstacle.
-/

namespace Workbench.Json

open Number (digitBound)
open Settings (Foreign Value)
open Text (CodePoint CodePoints)

/-- What holds of a list if it holds of its items, and of an object if it holds of its values, holds
of every value. -/
theorem value_induction {P : Value → Prop} (hnull : P .null) (hbool : ∀ b, P (.bool b))
    (hint : ∀ n, P (.int n)) (hfloat : ∀ bits, P (.float bits)) (htext : ∀ s, P (.text s))
    (hforeign : ∀ f, P (.foreign f)) (hlist : ∀ items, (∀ v ∈ items, P v) → P (.list items))
    (hobject : ∀ fields : List (CodePoints × Value), (∀ f ∈ fields, P f.2) → P (.object fields)) :
    ∀ v, P v
  | .null => hnull
  | .bool b => hbool b
  | .int n => hint n
  | .float bits => hfloat bits
  | .text s => htext s
  | .foreign f => hforeign f
  | .list items => hlist items fun v _ =>
      value_induction hnull hbool hint hfloat htext hforeign hlist hobject v
  | .object fields => hobject fields fun f _ =>
      value_induction hnull hbool hint hfloat htext hforeign hlist hobject f.2
termination_by v => sizeOf v
decreasing_by
  · next hv =>
    have hsize := List.sizeOf_lt_of_mem hv
    rw [Value.list.sizeOf_spec]
    omega
  · next hf =>
    have hsize := List.sizeOf_lt_of_mem hf
    obtain ⟨k, v⟩ := f
    rw [Prod.mk.sizeOf_spec] at hsize
    rw [Value.object.sizeOf_spec]
    dsimp only
    omega

/-- An obstacle stands in a value that is written at a level: the value is one, or one of its items or
fields holds one. -/
inductive Obstructs : Obstacle → Nat → Value → Prop
  | longNumber {level : Nat} {n : Int} (h : digitBound ≤ n.natAbs) :
      Obstructs .longNumber level (.int n)
  | foreign {level : Nat} {f : Foreign} : Obstructs (.foreign f) level (.foreign f)
  | deepList {level : Nat} {items : List Value} (h : depthLimit ≤ level) :
      Obstructs .depth level (.list items)
  | deepObject {level : Nat} {fields : List (CodePoints × Value)} (h : depthLimit ≤ level) :
      Obstructs .depth level (.object fields)
  | item {o : Obstacle} {level : Nat} {items : List Value} {v : Value} (hlevel : level < depthLimit)
      (hmem : v ∈ items) (h : Obstructs o (level + 1) v) : Obstructs o level (.list items)
  | field {o : Obstacle} {level : Nat} {fields : List (CodePoints × Value)} {f : CodePoints × Value}
      (hlevel : level < depthLimit) (hmem : f ∈ fields) (h : Obstructs o (level + 1) f.2) :
      Obstructs o level (.object fields)

mutual

/-- The value with a number in the place of each obstacle. -/
def filled (fill : Int) (level : Nat) : Value → Value
  | .int n => if n.natAbs < digitBound then .int n else .int fill
  | .list items =>
    if level < depthLimit then .list (filledItems fill (level + 1) items) else .int fill
  | .object fields =>
    if level < depthLimit then .object (filledFields fill (level + 1) fields) else .int fill
  | .foreign _ => .int fill
  | .null => .null
  | .bool b => .bool b
  | .float bits => .float bits
  | .text s => .text s

def filledItems (fill : Int) (level : Nat) : List Value → List Value
  | [] => []
  | v :: rest => filled fill level v :: filledItems fill level rest

def filledFields (fill : Int) (level : Nat) :
    List (CodePoints × Value) → List (CodePoints × Value)
  | [] => []
  | (k, v) :: rest => (k, filled fill level v) :: filledFields fill level rest

end

/-! ## Where the writing stops -/

/-- What may stand between the last text that is written and the obstacle: nothing, or a comma or a
bracket with the blanks that lead to the line of a number. -/
def IsLead (s : List Char) : Prop := ∀ c ∈ s, c ∈ [',', '[', '\n', ' ']

/-- The text `s` ends where the texts of `whole fill` go on with the number `fill`. -/
def StopsBefore (s : List Char) (whole : Int → Written) : Prop :=
  ∃ lead, IsLead lead ∧ ∀ fill : Int, fill.natAbs < digitBound →
    ∃ rest, (whole fill).text = s ++ (lead ++ ((Number.text fill).toList ++ rest))

/-- A text that is complete has no obstacle to fill in, any other stops before one. -/
structure Begins (w : Written) (whole : Int → Written) : Prop where
  complete : w.complete = true → ∀ fill, whole fill = w
  stopped : w.complete = false → StopsBefore w.text whole

theorem begins_of_complete {w : Written} (h : w.complete = true) : Begins w fun _ => w where
  complete _ _ := rfl
  stopped hstopped := absurd (h.symm.trans hstopped) (by decide)

theorem text_append_eq (a b : Written) : ∃ rest, (a ++ b).text = a.text ++ rest := by
  cases h : a.complete with
  | true => exact ⟨b.text, Written.text_append h⟩
  | false =>
    exact ⟨[], by rw [Written.append_of_stopped h, List.append_nil]⟩

/-- What comes after a text that is stopped is not written. -/
theorem Begins.append {a b : Written} {whole after : Int → Written} (ha : Begins a whole)
    (hb : Begins b after) : Begins (a ++ b) fun fill => whole fill ++ after fill := by
  cases hcomplete : a.complete with
  | true =>
    have hwhole := ha.complete hcomplete
    refine ⟨fun h fill => ?_, fun h => ?_⟩
    · rw [Written.complete_append, hcomplete, Bool.true_and] at h
      rw [hwhole, hb.complete h]
    · rw [Written.complete_append, hcomplete, Bool.true_and] at h
      obtain ⟨lead, hlead, hgoes⟩ := hb.stopped h
      refine ⟨lead, hlead, fun fill hfill => ?_⟩
      obtain ⟨rest, hrest⟩ := hgoes fill hfill
      refine ⟨rest, ?_⟩
      dsimp only
      rw [hwhole, Written.text_append hcomplete, Written.text_append hcomplete, hrest,
        List.append_assoc]
  | false =>
    rw [Written.append_of_stopped hcomplete]
    refine ⟨fun h => absurd (hcomplete.symm.trans h) (by decide), fun h => ?_⟩
    obtain ⟨lead, hlead, hgoes⟩ := ha.stopped h
    refine ⟨lead, hlead, fun fill hfill => ?_⟩
    obtain ⟨rest, hrest⟩ := hgoes fill hfill
    obtain ⟨more, hmore⟩ := text_append_eq (whole fill) (after fill)
    refine ⟨rest ++ more, ?_⟩
    dsimp only
    rw [hmore, hrest]
    simp only [List.append_assoc]

section Numbers

-- As for the equations of what is written, the bound for digits is not to be unfolded.
attribute [local irreducible] Number.text? digitBound

theorem isLead_nil : IsLead [] := fun _ hc => absurd hc List.not_mem_nil

/-- Where an obstacle stops the writing, a number could be filled in. -/
theorem begins_filled {w : Written} {lead : List Char} (hstopped : w.complete = false)
    (htext : w.text = lead) : Begins w fun fill =>
      (Number.text? fill).elim (.stuck .longNumber) fun t => .all (lead ++ t.toList) where
  complete h := absurd (hstopped.symm.trans h) Bool.false_ne_true
  stopped _ := by
    refine ⟨[], isLead_nil, fun fill hfill => ⟨[], ?_⟩⟩
    dsimp only
    rw [Number.text?_eq_some hfill, List.append_nil, htext]
    exact Written.text_all _

/-- A number and what is written together with it. -/
theorem begins_number {lead : List Char} (hlead : IsLead lead) (n : Int) :
    Begins ((Number.text? n).elim (.stuck .longNumber) fun t => .all (lead ++ t.toList)) fun fill =>
      (Number.text? (if n.natAbs < digitBound then n else fill)).elim (.stuck .longNumber)
        fun t => .all (lead ++ t.toList) := by
  by_cases hn : n.natAbs < digitBound
  · simp only [if_pos hn, Number.text?_eq_some hn]
    exact begins_of_complete rfl
  · simp only [if_neg hn, Number.text?_eq_none hn]
    refine ⟨fun h => absurd h Bool.false_ne_true, fun _ => ?_⟩
    refine ⟨lead, hlead, fun fill hfill => ⟨[], ?_⟩⟩
    dsimp only
    rw [Number.text?_eq_some hfill, List.append_nil]
    exact Written.text_all _

theorem isLead_newLine (level : Nat) : IsLead (newLine level) := by
  intro c hc
  rcases List.mem_cons.1 hc with rfl | hc
  · decide
  · rw [List.eq_of_mem_replicate hc]
    decide

theorem isLead_cons {c : Char} (hc : c = ',' ∨ c = '[') (level : Nat) :
    IsLead (c :: newLine level) := by
  refine List.forall_mem_cons.2 ⟨?_, isLead_newLine level⟩
  rcases hc with rfl | rfl <;> decide

/-- What is not a number is written after what stands before it. -/
theorem writeItems_cons (level : Nat) (lead : List Char) {v : Value} (h : ∀ n, v ≠ .int n)
    (vs : List Value) :
    writeItems level lead (v :: vs) =
      .all lead ++ write (level + 1) v ++ writeItems level (',' :: newLine (level + 1)) vs := by
  cases v with
  | int n => exact absurd rfl (h n)
  | null | bool | float | text | list | object | foreign => rfl

/-- A value is a number, or an obstacle in whose place a number is filled in, or neither before nor
after that a number. -/
theorem filled_cases (level : Nat) (v : Value) : (∃ n, v = .int n) ∨
    (∃ o, write level v = .stuck o ∧ (∀ n, v ≠ .int n) ∧ ∀ fill, filled fill level v = .int fill) ∨
    (∀ n, v ≠ .int n) ∧ ∀ fill n, filled fill level v ≠ .int n := by
  cases v with
  | int n => exact .inl ⟨n, rfl⟩
  | foreign f => exact .inr (.inl ⟨_, rfl, by simp, fun _ => rfl⟩)
  | list items =>
    by_cases hlevel : level < depthLimit
    · exact .inr (.inr ⟨by simp, fun fill n => by simp [filled, hlevel]⟩)
    · exact .inr (.inl ⟨_, write_deepList hlevel items, by simp,
        fun fill => by simp [filled, hlevel]⟩)
  | object fields =>
    by_cases hlevel : level < depthLimit
    · exact .inr (.inr ⟨by simp, fun fill n => by simp [filled, hlevel]⟩)
    · exact .inr (.inl ⟨_, write_deepObject hlevel fields, by simp,
        fun fill => by simp [filled, hlevel]⟩)
  | null | bool | float | text => exact .inr (.inr ⟨by simp, fun fill n => by simp [filled]⟩)

/-- What is written of a value. -/
def BeginsAt (level : Nat) (v : Value) : Prop :=
  Begins (write level v) fun fill => write level (filled fill level v)

theorem begins_stuck {level : Nat} {v : Value} {o : Obstacle} (h : write level v = .stuck o)
    (hfilled : ∀ fill, filled fill level v = .int fill) : BeginsAt level v := by
  unfold BeginsAt
  simp only [h, hfilled, write_int]
  exact begins_filled rfl rfl

/-- One case for each way in which an item may begin. -/
theorem begins_item {level : Nat} {lead : List Char} (hlead : IsLead lead) {v : Value}
    (h : BeginsAt (level + 1) v) {vs : List Value}
    (hvs : Begins (writeItems level (',' :: newLine (level + 1)) vs) fun fill =>
      writeItems level (',' :: newLine (level + 1)) (filledItems fill (level + 1) vs)) :
    Begins (writeItems level lead (v :: vs)) fun fill =>
      writeItems level lead (filledItems fill (level + 1) (v :: vs)) := by
  rcases filled_cases (level + 1) v with ⟨n, rfl⟩ | ⟨o, hstuck, hno, hfilled⟩ | ⟨hno, hfilled⟩
  · have hnumber : ∀ fill, filledItems fill (level + 1) (.int n :: vs) =
        .int (if n.natAbs < digitBound then n else fill) :: filledItems fill (level + 1) vs := by
      intro fill
      rw [filledItems, filled]
      split <;> rfl
    simp only [hnumber, writeItems_int]
    exact (begins_number hlead n).append hvs
  · simp only [filledItems, hfilled, writeItems_int, writeItems_cons level lead hno, hstuck]
    have htext : (Written.all lead ++ .stuck o).text = lead := by
      rw [Written.text_append rfl, Written.text_all]
      exact List.append_nil lead
    exact (begins_filled rfl htext).append hvs
  · simp only [filledItems, writeItems_cons level lead hno]
    simp only [writeItems_cons level lead (hfilled _)]
    exact ((begins_of_complete rfl).append h).append hvs

theorem begins_items {level : Nat} {lead : List Char} (hlead : IsLead lead) {vs : List Value}
    (h : ∀ v ∈ vs, BeginsAt (level + 1) v) :
    Begins (writeItems level lead vs) fun fill =>
      writeItems level lead (filledItems fill (level + 1) vs) := by
  induction vs generalizing lead with
  | nil => exact begins_of_complete rfl
  | cons v vs ih =>
    obtain ⟨hv, hvs⟩ := List.forall_mem_cons.1 h
    exact begins_item hlead hv (ih (isLead_cons (.inl rfl) (level + 1)) hvs)

theorem begins_fields {level : Nat} (lead : List Char) {fs : List (CodePoints × Value)}
    (h : ∀ f ∈ fs, BeginsAt (level + 1) f.2) :
    Begins (writeFields level lead fs) fun fill =>
      writeFields level lead (filledFields fill (level + 1) fs) := by
  induction fs generalizing lead with
  | nil => exact begins_of_complete rfl
  | cons f fs ih =>
    obtain ⟨hf, hfs⟩ := List.forall_mem_cons.1 h
    exact ((begins_of_complete rfl).append hf).append (ih (',' :: newLine (level + 1)) hfs)

/-- Every value is written to its end or up to an obstacle. Induction on the value: the items of a
list come after their commas, and a number is written together with the comma. -/
theorem begins_write (v : Value) (level : Nat) : BeginsAt level v := by
  induction v using value_induction generalizing level with
  | hnull => exact begins_of_complete rfl
  | hbool b => cases b <;> exact begins_of_complete rfl
  | hint n =>
    have hfilled : ∀ fill, filled fill level (.int n) =
        .int (if n.natAbs < digitBound then n else fill) := by
      intro fill
      rw [filled]
      split <;> rfl
    unfold BeginsAt
    simp only [hfilled, write_int]
    exact begins_number isLead_nil n
  | hfloat => exact begins_of_complete rfl
  | htext => exact begins_of_complete rfl
  | hforeign f => exact begins_stuck rfl fun _ => rfl
  | hlist items ih =>
    by_cases hlevel : level < depthLimit
    · unfold BeginsAt
      simp only [filled, if_pos hlevel]
      obtain _ | ⟨v, vs⟩ := items
      · simp only [filledItems, write_emptyList hlevel]
        exact begins_of_complete rfl
      · have hitems := begins_items (isLead_cons (.inr rfl) (level + 1))
          fun v hv => ih v hv (level + 1)
        simp only [filledItems, write_list hlevel] at hitems ⊢
        exact hitems.append (begins_of_complete rfl)
    · exact begins_stuck (write_deepList hlevel items) fun fill => by rw [filled, if_neg hlevel]
  | hobject fields ih =>
    by_cases hlevel : level < depthLimit
    · unfold BeginsAt
      simp only [filled, if_pos hlevel]
      obtain _ | ⟨f, fs⟩ := fields
      · simp only [filledFields, write_emptyObject hlevel]
        exact begins_of_complete rfl
      · have hfields := begins_fields ('\x7b' :: newLine (level + 1))
          fun f hf => ih f hf (level + 1)
        simp only [filledFields, write_object hlevel] at hfields ⊢
        exact hfields.append (begins_of_complete rfl)
    · exact begins_stuck (write_deepObject hlevel fields) fun fill => by rw [filled, if_neg hlevel]

/-! ## What stops it -/

/-- A text is stopped by an obstacle of which `P` holds, and it is complete only if `P` holds of
none. -/
structure StoppedBy (w : Written) (P : Obstacle → Prop) : Prop where
  obstacle : ∀ o, w.obstacle? = some o → P o
  complete : w.complete = true → ∀ o, ¬ P o

variable {P Q : Obstacle → Prop}

theorem stoppedBy_all (s : List Char) (h : ∀ o, ¬ P o) : StoppedBy (.all s) P :=
  ⟨fun _ ho => absurd ho (by simp [Written.all]), fun _ => h⟩

theorem stoppedBy_stuck {o : Obstacle} (h : P o) : StoppedBy (.stuck o) P :=
  ⟨fun _ ho => Option.some.inj ho ▸ h, fun hcomplete => absurd hcomplete Bool.false_ne_true⟩

theorem StoppedBy.congr {w : Written} (h : StoppedBy w P) (hP : ∀ o, P o ↔ Q o) : StoppedBy w Q :=
  ⟨fun o ho => (hP o).1 (h.obstacle o ho), fun hcomplete o ho => h.complete hcomplete o ((hP o).2 ho)⟩

theorem StoppedBy.append {a b : Written} (ha : StoppedBy a P) (hb : StoppedBy b Q) :
    StoppedBy (a ++ b) fun o => P o ∨ Q o := by
  cases h : a.complete with
  | true =>
    have hnone := ha.complete h
    rw [Written.append_of_complete h]
    exact ⟨fun o ho => .inr (hb.obstacle o ho),
      fun hcomplete o => not_or.2 ⟨hnone o, hb.complete hcomplete o⟩⟩
  | false =>
    rw [Written.append_of_stopped h]
    exact ⟨fun o ho => .inl (ha.obstacle o ho),
      fun hcomplete => absurd (h.symm.trans hcomplete) Bool.false_ne_true⟩

theorem stoppedBy_number (n : Int) (lead : List Char) (level : Nat) :
    StoppedBy ((Number.text? n).elim (.stuck .longNumber) fun t => .all (lead ++ t.toList))
      fun o => Obstructs o level (.int n) := by
  by_cases hn : n.natAbs < digitBound
  · rw [Number.text?_eq_some hn]
    refine stoppedBy_all _ fun o ho => ?_
    cases ho with
    | longNumber h => exact absurd hn (not_lt.2 h)
  · rw [Number.text?_eq_none hn]
    exact stoppedBy_stuck (.longNumber (not_lt.1 hn))

theorem stoppedBy_items {level : Nat} {vs : List Value}
    (h : ∀ v ∈ vs, StoppedBy (write (level + 1) v) fun o => Obstructs o (level + 1) v)
    (lead : List Char) :
    StoppedBy (writeItems level lead vs) fun o => ∃ v ∈ vs, Obstructs o (level + 1) v := by
  induction vs generalizing lead with
  | nil => exact stoppedBy_all [] fun _ ho => by simp at ho
  | cons v vs ih =>
    obtain ⟨hv, hvs⟩ := List.forall_mem_cons.1 h
    have hrest := ih hvs (',' :: newLine (level + 1))
    have hor : ∀ o, Obstructs o (level + 1) v ∨ (∃ w ∈ vs, Obstructs o (level + 1) w) ↔
        ∃ w ∈ v :: vs, Obstructs o (level + 1) w := fun o => by simp
    by_cases hnumber : ∃ n, v = .int n
    · obtain ⟨n, rfl⟩ := hnumber
      rw [writeItems_int]
      exact ((stoppedBy_number n lead (level + 1)).append hrest).congr hor
    · rw [writeItems_cons level lead (not_exists.1 hnumber)]
      have hlead := (stoppedBy_all (P := fun _ => False) lead fun _ => id).append hv
      exact ((hlead.congr fun o => by simp).append hrest).congr hor

theorem stoppedBy_fields {level : Nat} {fs : List (CodePoints × Value)}
    (h : ∀ f ∈ fs, StoppedBy (write (level + 1) f.2) fun o => Obstructs o (level + 1) f.2)
    (lead : List Char) :
    StoppedBy (writeFields level lead fs) fun o => ∃ f ∈ fs, Obstructs o (level + 1) f.2 := by
  induction fs generalizing lead with
  | nil => exact stoppedBy_all [] fun _ ho => by simp at ho
  | cons f fs ih =>
    obtain ⟨hf, hfs⟩ := List.forall_mem_cons.1 h
    have hname := (stoppedBy_all (P := fun _ => False) (lead ++ writeText f.1 ++ [':', ' '])
      fun _ => id).append hf
    rw [writeFields_cons]
    refine (hname.append (ih hfs _)).congr fun o => ?_
    rw [false_or]
    exact (List.exists_mem_cons_iff
      (fun g : CodePoints × Value => Obstructs o (level + 1) g.2) f fs).symm

/-- What stops a value from being written stands in it. Induction on the value. -/
theorem stoppedBy_write (v : Value) (level : Nat) :
    StoppedBy (write level v) fun o => Obstructs o level v := by
  induction v using value_induction generalizing level with
  | hnull => exact stoppedBy_all _ fun o ho => by cases ho
  | hbool b => cases b <;> exact stoppedBy_all _ fun o ho => by cases ho
  | hint n =>
    rw [write_int]
    exact stoppedBy_number n [] level
  | hfloat => exact stoppedBy_all _ fun o ho => by cases ho
  | htext => exact stoppedBy_all _ fun o ho => by cases ho
  | hforeign f => exact stoppedBy_stuck .foreign
  | hlist items ih =>
    by_cases hlevel : level < depthLimit
    · have hiff : ∀ o, (∃ v ∈ items, Obstructs o (level + 1) v) ↔ Obstructs o level (.list items) := by
        refine fun o => ⟨fun ⟨v, hmem, h⟩ => .item hlevel hmem h, fun h => ?_⟩
        cases h with
        | deepList hdeep => exact absurd hlevel (not_lt.2 hdeep)
        | item _ hmem h => exact ⟨_, hmem, h⟩
      obtain _ | ⟨v, vs⟩ := items
      · rw [write_emptyList hlevel]
        exact stoppedBy_all _ fun o ho => by simpa using (hiff o).2 ho
      · rw [write_list hlevel]
        have hitems := stoppedBy_items (fun v hv => ih v hv (level + 1))
          ('[' :: newLine (level + 1))
        have hclosed := hitems.append
          (stoppedBy_all (P := fun _ => False) (newLine level ++ [']']) fun _ => id)
        exact hclosed.congr fun o => (or_iff_left id).trans (hiff o)
    · rw [write_deepList hlevel]
      exact stoppedBy_stuck (.deepList (not_lt.1 hlevel))
  | hobject fields ih =>
    by_cases hlevel : level < depthLimit
    · have hiff : ∀ o, (∃ f ∈ fields, Obstructs o (level + 1) f.2) ↔
          Obstructs o level (.object fields) := by
        refine fun o => ⟨fun ⟨v, hmem, h⟩ => .field hlevel hmem h, fun h => ?_⟩
        cases h with
        | deepObject hdeep => exact absurd hlevel (not_lt.2 hdeep)
        | field _ hmem h => exact ⟨_, hmem, h⟩
      obtain _ | ⟨f, fs⟩ := fields
      · rw [write_emptyObject hlevel]
        exact stoppedBy_all _ fun o ho => by simpa using (hiff o).2 ho
      · rw [write_object hlevel]
        have hfields := stoppedBy_fields (fun f hf => ih f hf (level + 1))
          ('\x7b' :: newLine (level + 1))
        have hclosed := hfields.append
          (stoppedBy_all (P := fun _ => False) (newLine level ++ ['\x7d']) fun _ => id)
        exact hclosed.congr fun o => (or_iff_left id).trans (hiff o)
    · rw [write_deepObject hlevel]
      exact stoppedBy_stuck (.deepObject (not_lt.1 hlevel))

end Numbers

theorem obstructs_of_write {v : Value} {level : Nat} {o : Obstacle}
    (h : (write level v).obstacle? = some o) : Obstructs o level v :=
  (stoppedBy_write v level).obstacle o h

/-- A value is written to its end exactly if there is no obstacle in it. -/
theorem complete_write (v : Value) (level : Nat) :
    (write level v).complete = true ↔ ∀ o, ¬ Obstructs o level v := by
  refine ⟨(stoppedBy_write v level).complete, fun h => ?_⟩
  rw [Written.complete_eq_true, Option.eq_none_iff_forall_not_mem]
  exact fun o ho => h o (obstructs_of_write ho)

/-- What is written of a value with an obstacle in it stops before one. -/
theorem stopsBefore_render {v : Value} {o : Obstacle} (h : (render v).obstacle? = some o) :
    StopsBefore (render v).text fun fill => render (filled fill 0 v) := by
  have hstopped : (render v).complete = false := by
    rw [Written.complete, h]
    rfl
  exact (begins_write v 0).stopped hstopped

end Workbench.Json
