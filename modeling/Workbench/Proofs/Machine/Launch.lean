import Workbench.Machine.Basic

/-!
# Launches of a machine

* `nextEnding m`, `afterNext m` : how the next process will end, and the machine after its work;
* `Balks m l e` : a launch fails of itself, before there is a process or after it;
* `launch_of_lets`, `launch_of_balks` : what becomes of a launch;
* `launch_started`, `launch_withheld` : when there is a process.
-/

namespace Workbench

namespace Machine

/-- How the next process will end. -/
def nextEnding (m : Machine) : Ending := (m.outcomes.headD {}).ending

/-- The machine after the next process has done its work. -/
def afterNext (m : Machine) : Machine := (m.outcomes.headD {}).apply m

/-- A launch fails of itself. No process is launched, or one is launched without a refusal of the
system, and nobody waits for it. -/
inductive Balks (m : Machine) (l : Launch) : Failure → Prop
  | beforeStart {e : Failure} (h : m.objection? l = some (.beforeStart e)) : Balks m l e
  | afterStart {e : Failure} (h : m.objection? l = some (.afterStart e))
      (hending : ∀ fault path, m.nextEnding ≠ .refused fault path) : Balks m l e

theorem launch_of_lets {m : Machine} {l : Launch} (h : ∀ e, ¬ m.Balks l e) :
    m.launch l = (.ok m.nextEnding, m.started l) := by
  have hcases : ∀ objection ending, m.objection? l = objection → m.nextEnding = ending →
      m.launch l = (.ok ending, m.started l) := by
    intro objection ending hobjection hending
    unfold launch
    rw [show (m.outcomes.headD {}).ending = ending from hending, hobjection]
    match objection, ending with
    | none, _ => rfl
    | some (.beforeStart e), _ => exact absurd (.beforeStart hobjection) (h e)
    | some (.afterStart _), .refused _ _ => rfl
    | some (.afterStart e), .timedOut _ _ | some (.afterStart e), .exited _ _ _
    | some (.afterStart e), .failed _ =>
      exact absurd (.afterStart hobjection fun _ _ hrefused => nomatch hending.symm.trans hrefused)
        (h e)
  exact hcases _ _ rfl rfl

theorem launch_of_balks {m : Machine} {l : Launch} {e : Failure} (h : m.Balks l e) :
    (m.launch l).1 = .error e := by
  unfold launch
  cases h with
  | beforeStart h => rw [h]
  | afterStart h hending =>
    rw [h]
    cases hnext : (m.outcomes.headD {}).ending with
    | refused fault path => exact absurd hnext (hending fault path)
    | timedOut output errors => rfl
    | exited code output errors => rfl
    | failed e => rfl

theorem lets_of_unobjected {m : Machine} {l : Launch} (h : m.objection? l = none) :
    ∀ e, ¬ m.Balks l e := by
  rintro e (hobjection | ⟨hobjection, -⟩)
  · exact nomatch h.symm.trans hobjection
  · exact nomatch h.symm.trans hobjection

/-- Without an objection before the start, a process is launched whatever comes of the call. -/
theorem launch_started {m : Machine} {l : Launch}
    (h : ∀ e, m.objection? l ≠ some (.beforeStart e)) : (m.launch l).2 = m.started l := by
  unfold launch
  dsimp only
  split
  · rfl
  · next e hobjection => exact absurd hobjection (h e)
  · rfl
  · rfl

theorem launch_withheld {m : Machine} {l : Launch} {e : Failure}
    (h : m.objection? l = some (.beforeStart e)) : m.launch l = (.error e, m) := by
  unfold launch
  rw [h]

/-- A launch has started a process, or it has changed nothing. -/
theorem launch_started_or_same (m : Machine) (l : Launch) :
    (m.launch l).2 = m.started l ∨ (m.launch l).2 = m := by
  by_cases h : ∃ e, m.objection? l = some (.beforeStart e)
  · obtain ⟨e, he⟩ := h
    exact .inr (congrArg Prod.snd (launch_withheld he))
  · exact .inl (launch_started (not_exists.1 h))

/-- The process exits with code zero. -/
def Ending.IsSuccess (ending : Ending) : Prop := ∃ output errors, ending = .exited 0 output errors

end Machine

end Workbench
