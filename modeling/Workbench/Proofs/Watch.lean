import Mathlib.Algebra.Order.Field.Basic
import Mathlib.Data.List.Pairwise
import Mathlib.Data.List.Induction
import Mathlib.Tactic.Linarith
import Mathlib.Tactic.NormNum
import Workbench.Proofs.Action
import Workbench.Proofs.Artifact.Defaults
import Workbench.Watch

/-!
# Saves in a row

A save filter gets one event after the other, each at a time and with the machine as it is then. It
passes on a save that comes more than half a second after the last one that it passed on.

* `Delivery`, `SaveFilter.handle` : an event as it comes to a filter, and what becomes of it. One
  that cannot be looked up is dropped;
* `Delivery.IsSave d target` : a file was modified at a path, or moved to it, that is resolved to the
  target, however it is written;
* `SaveFilter.after`, `passes`, `passed` : the filter after deliveries, whether the next one is
  passed on, and those that were;
* `handle_of_save`, `handle_of_other` : one delivery;
* `last_after` : a filter keeps the time of the last delivery that it passed on;
* `saves_of_deliveries` : which deliveries of a row are passed on (`PassesOn`).

The times are exact numbers of any ordered field.
-/

namespace Workbench

/-! ## Resolved paths -/

namespace Machine

/-- What a path is resolved to is read from a text. -/
theorem resolve_eq_ok {m : Machine} {path : String} {p : Path} (h : m.resolve path = .ok p) :
    p = Path.ofText (m.realPath m.directoryText path) := by
  unfold resolve at h
  split at h
  · exact nomatch h
  · dsimp only at h
    split at h
    · exact (Except.ok.inj h).symm
    · split at h
      · exact nomatch h
      · exact (Except.ok.inj h).symm
    · exact (Except.ok.inj h).symm

/-- Paths that were resolved are known from their texts. -/
theorem text_inj_of_resolve {m m' : Machine} {path path' : String} {p p' : Path}
    (h : m.resolve path = .ok p) (h' : m'.resolve path' = .ok p') : p.text = p'.text ↔ p = p' := by
  rw [resolve_eq_ok h, resolve_eq_ok h']
  exact Path.text_inj (Path.isName_ofText _) (Path.isName_ofText _)

end Machine

/-! ## Deliveries -/

/-- An event as it comes to a filter: with the machine as it is then, and at a time. -/
structure Delivery (τ : Type) where
  machine : Machine
  time : τ
  event : FileEvent

/-- A file, and no directory, was modified at a path, or moved to it, that is resolved to the target.
How the path is written does not matter, and links are followed. -/
def Delivery.IsSave {τ : Type} (d : Delivery τ) (target : Path) : Prop :=
  d.event.isDirectory = false ∧ ∃ path : String,
    (d.event.change = .modified path ∨ ∃ source, d.event.change = .moved source path) ∧
      d.machine.resolve (Path.ofText path).text = .ok target

theorem FileEvent.saved?_eq_some {e : FileEvent} {path : String} : e.saved? = some path ↔
    e.isDirectory = false ∧
      (e.change = .modified path ∨ ∃ source, e.change = .moved source path) := by
  unfold saved?
  cases e.isDirectory with
  | true => simp
  | false => cases e.change <;> simp

/-- A filter looks at what was modified or moved, and at nothing else. -/
theorem Delivery.isSave_iff {τ : Type} {d : Delivery τ} {target : Path} : d.IsSave target ↔
    ∃ path, d.event.saved? = some path ∧
      d.machine.resolve (Path.ofText path).text = .ok target := by
  simp only [IsSave, FileEvent.saved?_eq_some, and_assoc, exists_and_left]

namespace SaveFilter

section Runs
variable {τ : Type} [Sub τ] [LT τ] [DecidableLT τ] [OfScientific τ]

/-- Whether a delivery is passed on, and the filter after it. One that fails is dropped. -/
def handle (f : SaveFilter τ) (d : Delivery τ) : Bool × SaveFilter τ :=
  match f.receiveAt d.machine d.time d.event with
  | .ok r => r
  | .error _ => (false, f)

/-- The filter after deliveries, one after the other. -/
def after (f : SaveFilter τ) (ds : List (Delivery τ)) : SaveFilter τ :=
  ds.foldl (fun f d => (f.handle d).2) f

/-- Is a delivery that comes after others passed on? -/
def passes (f : SaveFilter τ) (before : List (Delivery τ)) (d : Delivery τ) : Bool :=
  ((f.after before).handle d).1

/-- The deliveries that are passed on. -/
def passed (f : SaveFilter τ) : List (Delivery τ) → List (Delivery τ)
  | [] => []
  | d :: ds => (if (f.handle d).1 then [d] else []) ++ passed (f.handle d).2 ds

variable (f : SaveFilter τ)

theorem after_append (ds es : List (Delivery τ)) : f.after (ds ++ es) = (f.after ds).after es :=
  List.foldl_append

theorem after_concat (ds : List (Delivery τ)) (d : Delivery τ) :
    f.after (ds ++ [d]) = ((f.after ds).handle d).2 := after_append f ds [d]

theorem passed_concat (ds : List (Delivery τ)) (d : Delivery τ) :
    f.passed (ds ++ [d]) = f.passed ds ++ if f.passes ds d then [d] else [] := by
  induction ds generalizing f with
  | nil => exact List.append_nil _
  | cons e ds ih =>
    have hpasses : f.passes (e :: ds) d = (f.handle e).2.passes ds d := rfl
    rw [List.cons_append, passed, ih, passed, hpasses, List.append_assoc]

theorem passed_sublist (ds : List (Delivery τ)) : (f.passed ds).Sublist ds := by
  induction ds using List.reverseRecOn with
  | nil => exact List.Sublist.refl []
  | append_singleton ds d ih =>
    rw [passed_concat]
    apply ih.append
    split
    · exact List.Sublist.refl [d]
    · exact List.nil_sublist [d]

end Runs

/-! ## One delivery -/

/-- The target of a filter is the text of a path that was resolved. -/
def Awaits {τ : Type} (f : SaveFilter τ) (target : Path) : Prop :=
  f.target = target.text ∧ ∃ (m : Machine) (path : String), m.resolve path = .ok target

theorem awaits_of_forFile {τ : Type} [OfNat τ 0] {m : Machine} {path : String} {f : SaveFilter τ}
    (h : forFile m path = .ok f) :
    ∃ target, m.resolve (Path.ofText path).text = .ok target ∧ f.Awaits target ∧ f.last = 0 := by
  unfold forFile at h
  cases hresolve : m.resolve (Path.ofText path).text with
  | error failure => simp [hresolve, Except.map] at h
  | ok target =>
    rw [hresolve] at h
    obtain rfl := Except.ok.inj h
    exact ⟨target, rfl, ⟨rfl, m, _, hresolve⟩, rfl⟩

section Deliveries
variable {τ : Type} [Sub τ] [LT τ] [DecidableLT τ] [OfScientific τ]
variable {f : SaveFilter τ} {target : Path} {d : Delivery τ}

/-- A save counts if it comes later than the pause after the last one. -/
theorem handle_of_save (hf : f.Awaits target) (hd : d.IsSave target) :
    f.handle d = if savePause < d.time - f.last then (true, { f with last := d.time })
      else (false, f) := by
  obtain ⟨path, hsaved, hresolve⟩ := Delivery.isSave_iff.1 hd
  unfold handle receiveAt
  simp only [hsaved, hresolve, Except.map, observe, accepts, hf.1, decide_true, Bool.true_and,
    decide_eq_true_eq]

/-- Other deliveries leave a filter as it is. -/
theorem handle_of_other (hf : f.Awaits target) (hd : ¬ d.IsSave target) :
    f.handle d = (false, f) := by
  unfold handle receiveAt
  cases hsaved : d.event.saved? with
  | none => rfl
  | some path =>
    dsimp only
    cases hresolve : d.machine.resolve (Path.ofText path).text with
    | error failure => rfl
    | ok p =>
      obtain ⟨htext, m, path', htarget⟩ := hf
      have hp : p ≠ target := by
        rintro rfl
        exact hd (Delivery.isSave_iff.2 ⟨path, hsaved, hresolve⟩)
      have hother : ¬ p.text = f.target := by
        rw [htext, Machine.text_inj_of_resolve hresolve htarget]
        exact hp
      simp [Except.map, observe, accepts, hother]

theorem Awaits.handle (hf : f.Awaits target) (d : Delivery τ) : (f.handle d).2.Awaits target := by
  by_cases hd : d.IsSave target
  · rw [handle_of_save hf hd]
    split
    · exact hf
    · exact hf
  · rw [handle_of_other hf hd]
    exact hf

theorem Awaits.after (hf : f.Awaits target) (ds : List (Delivery τ)) :
    (f.after ds).Awaits target := by
  induction ds generalizing f with
  | nil => exact hf
  | cons d ds ih => exact ih (hf.handle d)

/-- A delivery that is passed on leaves its time, and any other nothing. -/
theorem last_handle (hf : f.Awaits target) (d : Delivery τ) :
    (f.handle d).2.last = if (f.handle d).1 then d.time else f.last := by
  by_cases hd : d.IsSave target
  · rw [handle_of_save hf hd]
    by_cases hlate : savePause < d.time - f.last
    · simp [hlate]
    · simp [hlate]
  · simp [handle_of_other hf hd]

/-! ## Deliveries in a row -/

/-- A filter keeps the time of the last delivery that it passed on. -/
theorem last_after (hf : f.Awaits target) (ds : List (Delivery τ)) :
    (f.after ds).last = ((f.passed ds).map Delivery.time).getLastD f.last := by
  induction ds using List.reverseRecOn with
  | nil => rfl
  | append_singleton ds d ih =>
    rw [after_concat, last_handle (hf.after ds), passed_concat, ih]
    by_cases hpasses : f.passes ds d = true
    · have hhandle : ((f.after ds).handle d).1 = true := hpasses
      simp [hhandle, hpasses]
    · have hhandle : ((f.after ds).handle d).1 = false := Bool.eq_false_iff.2 hpasses
      simp [hhandle, hpasses]

theorem passes_iff (hf : f.Awaits target) (ds : List (Delivery τ)) (d : Delivery τ) :
    f.passes ds d = true ↔ d.IsSave target ∧
      savePause < d.time - ((f.passed ds).map Delivery.time).getLastD f.last := by
  rw [← last_after hf]
  unfold passes
  by_cases hd : d.IsSave target
  · rw [handle_of_save (hf.after ds) hd]
    by_cases hlate : savePause < d.time - (f.after ds).last
    · simp [hlate, hd]
    · simp [hlate]
  · simp [handle_of_other (hf.after ds) hd, hd]

/-- A delivery that is no save of the target does not matter to what comes after it. -/
theorem after_insert (hf : f.Awaits target) (hd : ¬ d.IsSave target)
    (before more : List (Delivery τ)) :
    f.after (before ++ d :: more) = f.after (before ++ more) := by
  have hsame : ((f.after before).handle d).2 = f.after before := by
    rw [handle_of_other (hf.after before) hd]
  have hnext : (f.after before).after (d :: more) =
      (((f.after before).handle d).2).after more := rfl
  rw [after_append, after_append, hnext, hsame]

end Deliveries

/-! ## Exact times -/

/-- In a row of times that do not decrease, none is later than the last one. -/
theorem le_getLastD {τ : Type} [Preorder τ] {times : List τ} (h : times.Pairwise (· ≤ ·)) {t : τ}
    (ht : t ∈ times) (start : τ) : t ≤ times.getLastD start := by
  have hne : times ≠ [] := List.ne_nil_of_mem ht
  rw [List.getLastD_eq_getLast?, List.getLast?_eq_some_getLast hne]
  exact h.rel_getLast ht

section Exact
variable {K : Type} [Field K] [LinearOrder K] [IsStrictOrderedRing K]
variable {f : SaveFilter K} {target : Path}

theorem savePause_eq : (savePause : K) = 1 / 2 := by
  unfold savePause
  norm_num

/-- Two deliveries that are passed on are more than the pause apart. -/
theorem passed_apart (hf : f.Awaits target) {ds : List (Delivery K)}
    (hds : (ds.map Delivery.time).Pairwise (· ≤ ·)) :
    (f.passed ds).Pairwise fun d e => savePause < e.time - d.time := by
  -- Induction from the end: the last delivery is compared with the last one that was passed on
  -- before it, and all others came no later than that one.
  induction ds using List.reverseRecOn with
  | nil => exact List.Pairwise.nil
  | append_singleton ds d ih =>
    have hbefore : (ds.map Delivery.time).Pairwise (· ≤ ·) := by
      rw [List.map_append] at hds
      exact (List.pairwise_append.1 hds).1
    rw [passed_concat]
    by_cases hpasses : f.passes ds d = true
    · rw [if_pos hpasses, List.pairwise_append]
      refine ⟨ih hbefore, List.pairwise_singleton _ d, fun e he d' hd' => ?_⟩
      obtain rfl := List.mem_singleton.1 hd'
      obtain ⟨-, hlate⟩ := (passes_iff hf ds d').1 hpasses
      have hsorted : ((f.passed ds).map Delivery.time).Pairwise (· ≤ ·) :=
        hbefore.sublist ((f.passed_sublist ds).map Delivery.time)
      have hle := le_getLastD hsorted (List.mem_map_of_mem he) f.last
      linarith
    · rw [if_neg hpasses, List.append_nil]
      exact ih hbefore

/-- How a filter passes on the saves of its target among deliveries. The time of a save is compared
with that of the last one that was passed on before it, or with zero if there was none. -/
structure PassesOn (f : SaveFilter K) (target : Path) (ds : List (Delivery K)) : Prop where
  saves : ∀ before d more, ds = before ++ d :: more → f.passes before d = true → d.IsSave target
  counted : ∀ before d more, ds = before ++ d :: more → d.IsSave target →
    1 / 2 < d.time - ((f.passed before).map Delivery.time).getLastD 0 → f.passes before d = true
  dropped : ∀ before d more, ds = before ++ d :: more → d.IsSave target →
    f.passes before d = false → d.time - ((f.passed before).map Delivery.time).getLastD 0 ≤ 1 / 2
  apart : (f.passed ds).Pairwise fun d e => 1 / 2 < e.time - d.time
  others : ∀ before d more, ds = before ++ d :: more → ¬ d.IsSave target →
    f.passes before d = false ∧
      ∀ between e, f.passes (before ++ d :: between) e = f.passes (before ++ between) e

/-- A filter passes on a save of its target if and only if it comes more than half a second after
the last one that was passed on. So any two that are passed on are more than that apart, and one
that is dropped comes at most half a second after one that was not. Other deliveries are dropped and
do not matter to the next ones. -/
theorem saves_of_deliveries {m : Machine} {path : String} {f : SaveFilter K}
    (h : forFile m path = .ok f) {ds : List (Delivery K)}
    (hds : (ds.map Delivery.time).Pairwise (· ≤ ·)) :
    ∃ target, m.resolve (Path.ofText path).text = .ok target ∧ f.PassesOn target ds := by
  obtain ⟨target, hresolve, hf, hzero⟩ := awaits_of_forFile h
  have hiff : ∀ before d, f.passes before d = true ↔ d.IsSave target ∧
      1 / 2 < d.time - ((f.passed before).map Delivery.time).getLastD 0 := by
    intro before d
    rw [passes_iff hf, hzero, savePause_eq]
  refine ⟨target, hresolve, ?_, ?_, ?_, ?_, ?_⟩
  · intro before d more _ hpasses
    exact ((hiff before d).1 hpasses).1
  · intro before d more _ hd hlate
    exact (hiff before d).2 ⟨hd, hlate⟩
  · intro before d more _ hd hdropped
    apply le_of_not_gt
    intro hlate
    exact absurd ((hiff before d).2 ⟨hd, hlate⟩) (Bool.eq_false_iff.1 hdropped)
  · have hapart := passed_apart hf hds
    rw [savePause_eq] at hapart
    exact hapart
  · intro before d more _ hd
    constructor
    · rw [Bool.eq_false_iff]
      intro hpasses
      exact hd ((hiff before d).1 hpasses).1
    · intro between e
      unfold passes
      rw [after_insert hf hd]

end Exact

/-! ## A burst of saves -/

/-- A machine on which `/w/link.cple` is a link to `/w/a.cple`. -/
def linked : Machine where
  realPath := fun directory path =>
    if path = "/w/link.cple" then "/w/a.cple" else (Path.resolved directory path).text

/-- A change of a file at a time. -/
def changed (time : ℚ) (change : Change) : Delivery ℚ where
  machine := linked
  time
  event := { change }

/-- A file is saved twice within half a second, and then another file takes its place. -/
def burst : List (Delivery ℚ) :=
  [changed 1 (.modified "/w/link.cple"), changed (3 / 2) (.modified "/w/b/../a.cple"),
    changed 2 (.moved "/w/a.tmp" "/w/a.cple")]

/-- A save exactly half a second after the last one is dropped. -/
theorem saves_of_burst :
    ∃ f : SaveFilter ℚ, forFile linked "/w/a.cple" = .ok f ∧
      (burst.map Delivery.time).Pairwise (· ≤ ·) ∧ f.PassesOn (Path.ofText "/w/a.cple") burst ∧
      (f.passed burst).map Delivery.time = [1, 2] := by
  have hresolve : linked.resolve (Path.ofText "/w/a.cple").text =
      .ok (Path.ofText "/w/a.cple") := Action.eq_ok_of_toOption (by decide +kernel)
  have hf : forFile linked "/w/a.cple" = .ok { target := "/w/a.cple", last := (0 : ℚ) } := by
    unfold forFile
    rw [hresolve]
    rfl
  have hds : (burst.map Delivery.time).Pairwise (· ≤ ·) := by decide +kernel
  obtain ⟨target, htarget, h⟩ := saves_of_deliveries hf hds
  obtain rfl := Except.ok.inj (hresolve.symm.trans htarget)
  exact ⟨_, hf, hds, h, by decide +kernel⟩

end SaveFilter

end Workbench
