import Peachos.Foundation.Exec

/-! # Programs with the same runs

`Exec.Agrees` says of two programs that they have the same runs from the states with a
precondition, runs that stop with a fault included, and what holds where a run has completed. It is
what relates a program to a version of it that watches its steps. There is one rule for each way to
compose programs.
-/

namespace Exec

variable {ε σ α β : Type}

/-- From states with the precondition both programs have the same run, and where it completes the
postcondition holds. -/
def Agrees (pre : σ → Prop) (first second : Exec ε σ α) (post : α → σ → Prop) : Prop :=
  ∀ state, pre state → first.run state = second.run state ∧
    ∀ value final, second.run state = .ok (value, final) → post value final

namespace Agrees

variable {pre : σ → Prop} {post : α → σ → Prop}

/-- A program agrees with itself. -/
theorem same {program : Exec ε σ α}
    (holds : ∀ state value final, pre state → program.run state = .ok (value, final) →
      post value final) : Agrees pre program program post :=
  fun state held => ⟨rfl, fun value final run => holds state value final held run⟩

/-- A program agrees with itself on what it ensures. -/
theorem ensured {program : Exec ε σ α} {found : α → Prop} (ensures : Ensures pre program found) :
    Agrees pre program program fun value final => pre final ∧ found value :=
  same ensures

theorem pure {value : α} (holds : ∀ state, pre state → post value state) :
    Agrees pre (Pure.pure value : Exec ε σ α) (Pure.pure value) post := by
  refine same fun state found final held run => ?_
  cases run
  exact holds _ held

/-- Two faults that are the same leave nothing to show of completed runs. -/
theorem fault (reason : ε) :
    Agrees pre (Exec.fault reason : Exec ε σ α) (Exec.fault reason) post :=
  same fun _ _ _ _ run => nomatch run

/-- A stronger precondition and a weaker postcondition. -/
theorem mono {first second : Exec ε σ α} (agrees : Agrees pre first second post)
    {stronger : σ → Prop} {weaker : α → σ → Prop} (before : ∀ state, stronger state → pre state)
    (after : ∀ value final, post value final → weaker value final) :
    Agrees stronger first second weaker := by
  intro state held
  obtain ⟨equal, holds⟩ := agrees state (before state held)
  exact ⟨equal, fun value final run => after value final (holds value final run)⟩

/-- A stronger precondition alone. -/
theorem strengthen {first second : Exec ε σ α} (agrees : Agrees pre first second post)
    {stronger : σ → Prop} (before : ∀ state, stronger state → pre state) :
    Agrees stronger first second post :=
  agrees.mono before fun _ _ => id

/-- Sequencing. The programs may differ in both parts. -/
theorem bind {first second : Exec ε σ α} {next next' : α → Exec ε σ β} {goal : β → σ → Prop}
    (started : Agrees pre first second post)
    (rest : ∀ value, Agrees (post value) (next value) (next' value) goal) :
    Agrees pre (first >>= next) (second >>= next') goal := by
  intro state held
  obtain ⟨equal, holds⟩ := started state held
  cases done : second.run state with
  | error reason =>
      rw [bind_of_error (equal.trans done), bind_of_error done]
      exact ⟨rfl, fun _ _ run => nomatch run⟩
  | ok result =>
      rw [bind_of_ok (equal.trans done), bind_of_ok done]
      exact rest result.1 result.2 (holds _ _ done)

/-- Both programs start with the same step, which keeps the precondition. -/
theorem after {step : Exec ε σ α} {next next' : α → Exec ε σ β} {found : α → Prop}
    {goal : β → σ → Prop} (ensures : Ensures pre step found)
    (rest : ∀ value, found value → Agrees pre (next value) (next' value) goal) :
    Agrees pre (step >>= next) (step >>= next') goal :=
  bind (ensured ensures) fun value state held => rest value held.2 state held.1

/-- A branch under one condition in both programs. -/
theorem ite {condition : Prop} [Decidable condition] {left left' right right' : Exec ε σ α}
    (first : condition → Agrees pre left left' post)
    (second : ¬ condition → Agrees pre right right' post) :
    Agrees pre (if condition then left else right) (if condition then left' else right') post := by
  split
  next holds => exact first holds
  next fails => exact second fails

end Agrees

end Exec
