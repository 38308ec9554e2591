import Peachos.Foundation.Exec

/-! # The faults that a program can end in

`Exec.Ensures` says nothing of a run that stops with a fault. `Exec.Confined` also bounds the
faults: from a state with the invariant a program completes in such a state, with a result that
satisfies its postcondition, or stops with one of the allowed faults.
-/

namespace Exec

variable {ε σ α β : Type}

/-- Runs from states with the invariant end as `Ensures` says, or with an allowed fault. -/
structure Confined (allowed : ε → Prop) (invariant : σ → Prop) (program : Exec ε σ α)
    (post : α → Prop) : Prop where
  ensures : Ensures invariant program post
  faults : ∀ state reason, invariant state → program.run state = .error reason → allowed reason

namespace Confined

variable {allowed : ε → Prop} {invariant : σ → Prop} {post : α → Prop}

/-- A result that satisfies the postcondition. -/
theorem pure {value : α} (result : post value) :
    Confined allowed invariant (Pure.pure value : Exec ε σ α) post where
  ensures := .pure result
  faults := fun _ _ _ stopped => nomatch stopped

/-- Stopping with an allowed fault. -/
theorem fault {reason : ε} (permitted : allowed reason) :
    Confined allowed invariant (Exec.fault reason : Exec ε σ α) post where
  ensures := .fault reason
  faults := by
    intro state found _ stopped
    cases stopped
    exact permitted

theorem read {view : σ → α} (viewed : ∀ state, invariant state → post (view state)) :
    Confined allowed invariant (Exec.read view : Exec ε σ α) post where
  ensures := .read viewed
  faults := fun _ _ _ stopped => nomatch stopped

/-- Reading a part of the state that may be missing, with a fault that is allowed. -/
theorem demand {reason : ε} {view : σ → Option α} (permitted : allowed reason)
    (viewed : ∀ state value, invariant state → view state = some value → post value) :
    Confined allowed invariant (Exec.demand reason view : Exec ε σ α) post where
  ensures := .demand viewed
  faults := by
    intro state found _ stopped
    cases present : view state with
    | some value =>
        rw [demand_of_some present] at stopped
        cases stopped
    | none =>
        simp only [Exec.demand, run_of, present, Except.error.injEq] at stopped
        exact stopped ▸ permitted

/-- Sequencing. The fault of either part is allowed. -/
theorem bind {program : Exec ε σ α} {next : α → Exec ε σ β} {goal : β → Prop}
    (first : Confined allowed invariant program post)
    (rest : ∀ value, post value → Confined allowed invariant (next value) goal) :
    Confined allowed invariant (program >>= next) goal where
  ensures := .bind first.ensures fun value found => (rest value found).ensures
  faults := by
    intro state reason holds stopped
    cases started : program.run state with
    | error early =>
        rw [bind_of_error started] at stopped
        cases stopped
        exact first.faults state _ holds started
    | ok done =>
        rw [bind_of_ok started] at stopped
        obtain ⟨held, found⟩ := first.ensures state done.1 done.2 holds started
        exact (rest done.1 found).faults done.2 reason held stopped

/-- A branch, with its condition known on each side. -/
theorem ite {condition : Prop} [Decidable condition] {left right : Exec ε σ α}
    (first : condition → Confined allowed invariant left post)
    (second : ¬ condition → Confined allowed invariant right post) :
    Confined allowed invariant (if condition then left else right) post := by
  split
  next holds => exact first holds
  next fails => exact second fails

/-- A weaker postcondition; the faults are the same. -/
theorem mono {program : Exec ε σ α} {weaker : α → Prop}
    (holds : Confined allowed invariant program post)
    (implies : ∀ value, post value → weaker value) : Confined allowed invariant program weaker where
  ensures := holds.ensures.mono implies
  faults := holds.faults

end Confined

end Exec
