import Workbench.Failure

/-!
# What work ensures however it ends

* `Action.Ensures R a` : the state before the work `a` and the state after it are related by `R`,
  also where the work fails;
* `bind_ensures`, `Ensures.bind` : work in two parts ensures a transitive relation if both parts do;
* `state_bind_pure`, `exists_ok_of_no_error` : the state after an answer, and work that cannot fail;
* `eq_ok_of_toOption`, `eq_error_of_failure?` : results that are known from an evaluation.
-/

namespace Workbench.Action

variable {σ α β : Type} {R : σ → σ → Prop}

/-- The states before and after are related, whether there is a result or a failure. -/
def Ensures (R : σ → σ → Prop) (a : Action σ α) : Prop := ∀ s, R s (a s).2

/-- The second part is looked at only where the first has a result. -/
theorem bind_ensures {a : Action σ α} {f : α → Action σ β} {s : σ}
    (htrans : ∀ {s t u}, R s t → R t u → R s u) (ha : R s (a s).2)
    (hf : ∀ x t, a s = (.ok x, t) → R t (f x t).2) : R s ((a >>= f) s).2 := by
  rw [bind_apply]
  split
  · next x t h =>
    rw [h] at ha
    exact htrans ha (hf x t h)
  · next x t h =>
    rw [h] at ha
    exact ha

theorem Ensures.bind {a : Action σ α} {f : α → Action σ β}
    (htrans : ∀ {s t u}, R s t → R t u → R s u) (ha : Ensures R a) (hf : ∀ x, Ensures R (f x)) :
    Ensures R (a >>= f) :=
  fun s => bind_ensures htrans (ha s) fun x t _ => hf x t

/-- What the second part ensures holds from where the first one ends. -/
theorem after_bind_ensures {a : Action σ α} {f : α → Action σ β} (hrefl : ∀ t, R t t)
    (hf : ∀ x, Ensures R (f x)) (s : σ) : R (a s).2 ((a >>= f) s).2 := by
  rw [bind_apply]
  split
  · next x t h =>
    rw [h]
    exact hf x t
  · next x t h =>
    rw [h]
    exact hrefl t

theorem bind_eq_of_error {a : Action σ α} {f : α → Action σ β} {s t : σ} {failure : Failure}
    (h : a s = (.error failure, t)) : (a >>= f) s = (.error failure, t) := by
  rw [bind_apply, h]

/-- An answer after the work does not change what the work leaves. -/
theorem state_bind_pure (a : Action σ α) (f : α → β) (s : σ) :
    ((a >>= fun x => (pure (f x) : Action σ β)) s).2 = (a s).2 := by
  rw [bind_apply]
  split
  · next x t h => rw [h]; rfl
  · next failure t h => rw [h]

/-- Work that cannot fail has a result. -/
theorem exists_ok_of_no_error {a : Action σ α} {s : σ} (h : ∀ failure, (a s).1 ≠ .error failure) :
    ∃ x t, a s = (.ok x, t) := by
  cases hr : (a s).1 with
  | ok x => exact ⟨x, (a s).2, Prod.ext hr rfl⟩
  | error failure => exact absurd hr (h failure)

/-! ## Evaluated work -/

/-- The failure of a result that is none. -/
def failure? : Except Failure α → Option Failure
  | .ok _ => none
  | .error failure => some failure

theorem eq_ok_of_toOption {r : Except Failure α} {x : α} (h : r.toOption = some x) : r = .ok x := by
  cases r with
  | ok y => exact congrArg Except.ok (Option.some.inj h)
  | error failure => exact nomatch h

theorem eq_error_of_failure? {r : Except Failure α} {failure : Failure}
    (h : failure? r = some failure) : r = .error failure := by
  cases r with
  | ok x => exact nomatch h
  | error failure' => exact congrArg Except.error (Option.some.inj h)

theorem eq_of_toOption {a : Action σ α} {s : σ} {x : α} (h : (a s).1.toOption = some x) :
    a s = (.ok x, (a s).2) := Prod.ext (eq_ok_of_toOption h) rfl

end Workbench.Action
