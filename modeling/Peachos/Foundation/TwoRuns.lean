import Peachos.Foundation.Exec

/-! # Two runs of a program

`Exec.Coupled` says of a program that its runs from two related states go the same way: both stop
with the same fault, or both complete with the same result, in states that are related again. What
the relation leaves open is then no input of the program. There is one rule for each way to compose
programs.
-/

namespace Exec

variable {ε σ α β : Type}

/-- From related states both runs stop alike or complete alike. -/
def Coupled (pre : σ → σ → Prop) (program : Exec ε σ α) (post : α → σ → σ → Prop) : Prop :=
  ∀ state other, pre state other →
    (∃ reason, program.run state = .error reason ∧ program.run other = .error reason) ∨
    ∃ value final final', program.run state = .ok (value, final) ∧
      program.run other = .ok (value, final') ∧ post value final final'

namespace Coupled

variable {pre : σ → σ → Prop} {post : α → σ → σ → Prop}

/-- Where one run completes, so does the other. -/
theorem run_of_ok {program : Exec ε σ α} (coupled : Coupled pre program post) {state other final : σ}
    {value : α} (related : pre state other) (run : program.run state = .ok (value, final)) :
    ∃ final', program.run other = .ok (value, final') ∧ post value final final' := by
  rcases coupled state other related with ⟨reason, stopped, _⟩ | ⟨_, _, final', done, done', after⟩
  · rw [run] at stopped
    cases stopped
  · rw [run] at done
    cases done
    exact ⟨final', done', after⟩

theorem pure {value : α} (holds : ∀ state other, pre state other → post value state other) :
    Coupled pre (Pure.pure value : Exec ε σ α) post :=
  fun state other related => .inr ⟨value, state, other, rfl, rfl, holds state other related⟩

/-- Both runs stop. -/
theorem fault (reason : ε) : Coupled pre (Exec.fault reason : Exec ε σ α) post :=
  fun _ _ _ => .inl ⟨reason, rfl, rfl⟩

/-- Reading what is the same in related states. -/
theorem read {view : σ → α} (same : ∀ state other, pre state other → view other = view state)
    (holds : ∀ state other, pre state other → post (view state) state other) :
    Coupled pre (Exec.read view : Exec ε σ α) post := by
  intro state other related
  refine .inr ⟨view state, state, other, rfl, ?_, holds state other related⟩
  rw [run_read, same state other related]

/-- Reading a part of the state that may be missing, in both states or in neither. -/
theorem demand {reason : ε} {view : σ → Option α}
    (same : ∀ state other, pre state other → view other = view state)
    (holds : ∀ state other value, pre state other → view state = some value →
      post value state other) :
    Coupled pre (Exec.demand reason view : Exec ε σ α) post := by
  intro state other related
  cases present : view state with
  | some value =>
      exact .inr ⟨value, state, other, demand_of_some present,
        demand_of_some ((same state other related).trans present),
        holds state other value related present⟩
  | none =>
      refine .inl ⟨reason, ?_, ?_⟩
      · simp only [Exec.demand, run_of, present]
      · simp only [Exec.demand, run_of, same state other related, present]

/-- A stronger relation before and a weaker one after. -/
theorem mono {program : Exec ε σ α} (coupled : Coupled pre program post) {stronger : σ → σ → Prop}
    {weaker : α → σ → σ → Prop} (before : ∀ state other, stronger state other → pre state other)
    (after : ∀ value state other, post value state other → weaker value state other) :
    Coupled stronger program weaker := by
  intro state other related
  rcases coupled state other (before state other related) with stopped |
    ⟨value, final, final', run, run', holds⟩
  · exact .inl stopped
  · exact .inr ⟨value, final, final', run, run', after value final final' holds⟩

/-- Sequencing. The relation between the parts may depend on the result of the first. -/
theorem bind {program : Exec ε σ α} {next : α → Exec ε σ β} {goal : β → σ → σ → Prop}
    (first : Coupled pre program post) (rest : ∀ value, Coupled (post value) (next value) goal) :
    Coupled pre (program >>= next) goal := by
  intro state other related
  rcases first state other related with ⟨reason, stopped, stopped'⟩ |
    ⟨value, final, final', run, run', holds⟩
  · exact .inl ⟨reason, bind_of_error stopped, bind_of_error stopped'⟩
  · rw [bind_of_ok run, bind_of_ok run']
    exact rest value final final' holds

/-- A first part whose result is known. -/
theorem after {program : Exec ε σ α} {next : α → Exec ε σ β} {found : α → Prop}
    {middle : σ → σ → Prop} {goal : β → σ → σ → Prop}
    (first : Coupled pre program fun value state other => found value ∧ middle state other)
    (rest : ∀ value, found value → Coupled middle (next value) goal) :
    Coupled pre (program >>= next) goal :=
  first.bind fun value state other related => rest value related.1 state other related.2

/-- What the first run ensures by itself. -/
theorem ensuring {program : Exec ε σ α} {invariant : σ → Prop} {found : α → Prop}
    (coupled : Coupled pre program post) (ensures : Ensures invariant program found) :
    Coupled (fun state other => invariant state ∧ pre state other) program
      fun value state other => found value ∧ invariant state ∧ post value state other := by
  rintro state other ⟨held, related⟩
  rcases coupled state other related with stopped | ⟨value, final, final', run, run', holds⟩
  · exact .inl stopped
  · obtain ⟨kept, known⟩ := ensures state value final held run
    exact .inr ⟨value, final, final', run, run', known, kept, holds⟩

/-- A branch whose condition is no part of the state. -/
theorem ite {condition : Prop} [Decidable condition] {left right : Exec ε σ α}
    (first : condition → Coupled pre left post) (second : ¬ condition → Coupled pre right post) :
    Coupled pre (if condition then left else right) post := by
  split
  next holds => exact first holds
  next fails => exact second fails

end Coupled

end Exec
