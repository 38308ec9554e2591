import Peachos.Foundation.Exec

/-! # Parts of the state that a program does not use

`Exec.Ignores` says that a change of the state makes no difference to a program: it has the same
result in the changed state, and the change is still there after it. There is one rule for each way
to compose programs.
-/

namespace Exec

variable {ε σ α β : Type}

/-- From states with the invariant, which is kept, the program does the same in the changed
state. -/
def Ignores (invariant : σ → Prop) (change : σ → σ) (program : Exec ε σ α) : Prop :=
  ∀ state, invariant state →
    program.run (change state) = (program.run state).map (Prod.map id change) ∧
      ∀ value final, program.run state = .ok (value, final) → invariant final

namespace Ignores

variable {invariant : σ → Prop} {change : σ → σ}

theorem pure (value : α) : Ignores invariant change (Pure.pure value : Exec ε σ α) := by
  intro state holds
  refine ⟨rfl, fun found final run => ?_⟩
  cases run
  exact holds

/-- A fault stops both runs. -/
theorem fault (reason : ε) : Ignores invariant change (Exec.fault reason : Exec ε σ α) :=
  fun _ _ => ⟨rfl, fun _ _ run => nomatch run⟩

/-- Reading what the change leaves. -/
theorem read {view : σ → α} (same : ∀ state, view (change state) = view state) :
    Ignores invariant change (Exec.read view : Exec ε σ α) := by
  intro state holds
  refine ⟨?_, fun found final run => ?_⟩
  · rw [run_read, run_read, same]
    rfl
  · cases run
    exact holds

/-- Reading a part of the state that may be missing; whether it is missing does not change. -/
theorem demand {reason : ε} {view : σ → Option α}
    (same : ∀ state, invariant state → view (change state) = view state) :
    Ignores invariant change (Exec.demand reason view : Exec ε σ α) := by
  intro state holds
  refine ⟨?_, fun found final run => ?_⟩
  · cases present : view state with
    | some value =>
        rw [demand_of_some ((same state holds).trans present), demand_of_some present]
        rfl
    | none => simp [Exec.demand, same state holds, present, Except.map]
  · obtain ⟨_, rfl⟩ := demand_eq_ok.mp run
    exact holds

/-- Sequencing. The invariant is what the second part needs of the state between. -/
theorem bind {program : Exec ε σ α} {next : α → Exec ε σ β}
    (first : Ignores invariant change program)
    (rest : ∀ value, Ignores invariant change (next value)) :
    Ignores invariant change (program >>= next) := by
  intro state holds
  obtain ⟨same, kept⟩ := first state holds
  cases done : program.run state with
  | error reason =>
      rw [done] at same
      have same' : program.run (change state) = .error reason := same
      rw [bind_of_error done, bind_of_error same']
      exact ⟨rfl, fun _ _ run => nomatch run⟩
  | ok result =>
      rw [done] at same
      have same' : program.run (change state) = .ok (result.1, change result.2) := same
      rw [bind_of_ok done, bind_of_ok same']
      exact rest result.1 result.2 (kept _ _ done)

/-- A branch whose condition is no part of the state. -/
theorem ite {condition : Prop} [Decidable condition] {left right : Exec ε σ α}
    (first : Ignores invariant change left) (second : Ignores invariant change right) :
    Ignores invariant change (if condition then left else right) := by
  split
  · exact first
  · exact second

/-- What a completed run does in the changed state. -/
theorem run_of_ok {program : Exec ε σ α} (ignores : Ignores invariant change program) {state : σ}
    (holds : invariant state) {value : α} {final : σ}
    (done : program.run (change state) = .ok (value, final)) :
    ∃ final', program.run state = .ok (value, final') ∧ final = change final' ∧
      invariant final' := by
  obtain ⟨same, kept⟩ := ignores state holds
  cases run : program.run state with
  | error reason =>
      rw [done, run] at same
      cases same
  | ok result =>
      rw [done, run] at same
      cases same
      exact ⟨result.2, rfl, rfl, kept _ _ run⟩

end Ignores

end Exec
