import Mathlib.Data.List.Basic

/-!
# Machines that take step after step

A machine is a step function from a state and an action; no result means that the
action is not possible in the state.  A schedule is a list of actions, so that all
interleavings of the parties of a system are the schedules of one machine.
-/

namespace Machine

variable {σ α : Type*} {step : σ → α → Option σ}

/-- The state after a schedule, if all its actions are possible. -/
def run (step : σ → α → Option σ) (s : σ) (schedule : List α) : Option σ :=
  schedule.foldlM step s

/-- Some schedule leads to a state. -/
def Reachable (step : σ → α → Option σ) (start s : σ) : Prop :=
  ∃ schedule, run step start schedule = some s

@[simp]
theorem run_nil (s : σ) : run step s [] = some s := rfl

theorem run_cons (s : σ) (a : α) (schedule : List α) :
    run step s (a :: schedule) = (step s a).bind fun s' => run step s' schedule := by
  rw [run, List.foldlM_cons]
  rfl

/-- Schedules compose. -/
theorem run_append (s : σ) (first second : List α) :
    run step s (first ++ second) = (run step s first).bind fun s' => run step s' second := by
  rw [run, List.foldlM_append]
  rfl

variable {s s' : σ} {schedule : List α}

theorem run_cons_eq_some {a : α} :
    run step s (a :: schedule) = some s' ↔
      ∃ s₁, step s a = some s₁ ∧ run step s₁ schedule = some s' := by
  rw [run_cons, Option.bind_eq_some_iff]

theorem run_concat_eq_some {a : α} :
    run step s (schedule ++ [a]) = some s' ↔
      ∃ s₁, run step s schedule = some s₁ ∧ step s₁ a = some s' := by
  rw [run_append, Option.bind_eq_some_iff]
  simp [run_cons]

/-- What every step keeps a schedule keeps. -/
theorem invariant_of_run {P : σ → Prop} (hstep : ∀ s a s', P s → step s a = some s' → P s')
    (h : run step s schedule = some s') (hs : P s) : P s' := by
  induction schedule generalizing s with
  | nil =>
    cases h
    exact hs
  | cons a schedule ih =>
    rcases run_cons_eq_some.mp h with ⟨s₁, hfirst, hrest⟩
    exact ih hrest (hstep s a s₁ hs hfirst)

theorem Reachable.refl (s : σ) : Reachable step s s :=
  ⟨[], rfl⟩

theorem Reachable.tail {s₁ : σ} {a : α} (h : Reachable step s s₁) (hlast : step s₁ a = some s') :
    Reachable step s s' := by
  rcases h with ⟨schedule, hrun⟩
  exact ⟨schedule ++ [a], run_concat_eq_some.mpr ⟨s₁, hrun, hlast⟩⟩

theorem Reachable.trans {s₁ : σ} (h : Reachable step s s₁) (h' : Reachable step s₁ s') :
    Reachable step s s' := by
  rcases h with ⟨first, hfirst⟩
  rcases h' with ⟨second, hsecond⟩
  exact ⟨first ++ second, by rw [run_append, hfirst, Option.bind_some, hsecond]⟩

/-- What the start has and every step keeps holds in every reachable state. -/
theorem Reachable.invariant {P : σ → Prop} {start : σ} (h : Reachable step start s)
    (hstart : P start) (hstep : ∀ s a s', P s → step s a = some s' → P s') : P s := by
  rcases h with ⟨schedule, hrun⟩
  exact invariant_of_run hstep hrun hstart

end Machine
