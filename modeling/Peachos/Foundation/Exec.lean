import Mathlib.Tactic.Basic

/-! # Stateful programs that can fault

`Exec ε σ α` is a computation over a state `σ` that returns an `α` or stops with
a fault `ε`. A fault stands for a step whose effect the language leaves undefined,
so a statement about a program says that a run ends in `Except.ok`.

`Exec.bind_eq_ok` takes a completed sequence apart, and `Exec.Ensures` carries an invariant
through a program with what is known of its result.
-/

/-- A computation over the state `σ` that may stop with a fault in `ε`. -/
def Exec (ε σ α : Type) : Type := σ → Except ε (α × σ)

namespace Exec

variable {ε σ α β : Type}

/-- The computation with the given transition function. -/
def of (transition : σ → Except ε (α × σ)) : Exec ε σ α := transition

/-- Run a computation from a state. -/
def run (program : Exec ε σ α) (state : σ) : Except ε (α × σ) := program state

@[simp] theorem run_of (transition : σ → Except ε (α × σ)) (state : σ) :
    (of transition).run state = transition state := rfl

/-- Run a program, then the one its result selects. -/
def andThen (program : Exec ε σ α) (next : α → Exec ε σ β) : Exec ε σ β := of fun state =>
  match program.run state with
  | .error reason => .error reason
  | .ok (value, middle) => (next value).run middle

instance : Monad (Exec ε σ) where
  pure value := of fun state => .ok (value, state)
  bind := andThen

/-- Stop with a fault. -/
def fault (reason : ε) : Exec ε σ α := of fun _ => .error reason

/-- Read a part of the state. -/
def read (view : σ → α) : Exec ε σ α := of fun state => .ok (view state, state)

/-- Replace the state. -/
def update (change : σ → σ) : Exec ε σ Unit := of fun state => .ok ((), change state)

/-- Read a part of the state that may be missing. -/
def demand (reason : ε) (view : σ → Option α) : Exec ε σ α := of fun state =>
  match view state with
  | some value => .ok (value, state)
  | none => .error reason

/-- The conditional without an alternative. -/
def when (condition : Prop) [Decidable condition] (program : Exec ε σ Unit) : Exec ε σ Unit :=
  if condition then program else pure ()

@[simp] theorem run_pure (value : α) (state : σ) :
    (pure value : Exec ε σ α).run state = .ok (value, state) := rfl

@[simp] theorem run_fault (reason : ε) (state : σ) :
    (fault reason : Exec ε σ α).run state = .error reason := rfl

@[simp] theorem run_read (view : σ → α) (state : σ) :
    (read view : Exec ε σ α).run state = .ok (view state, state) := rfl

@[simp] theorem run_update (change : σ → σ) (state : σ) :
    (update change : Exec ε σ Unit).run state = .ok ((), change state) := rfl

theorem run_when (condition : Prop) [Decidable condition] (program : Exec ε σ Unit) (state : σ) :
    (when condition program).run state =
      if condition then program.run state else .ok ((), state) := by
  by_cases holds : condition
  · simp only [when, holds, if_true]
  · simp only [when, holds, if_false, run_pure]

theorem demand_of_some {reason : ε} {view : σ → Option α} {state : σ} {value : α}
    (present : view state = some value) :
    (demand reason view : Exec ε σ α).run state = .ok (value, state) := by
  simp only [demand, run_of, present]

/-- A demanded part was present, and reading it changed nothing. -/
theorem demand_eq_ok {reason : ε} {view : σ → Option α} {state next : σ} {value : α} :
    (demand reason view : Exec ε σ α).run state = .ok (value, next) ↔
      view state = some value ∧ next = state := by
  cases present : view state with
  | none => simp only [demand, run_of, present, reduceCtorEq, false_and]
  | some found =>
      simp only [demand, run_of, present, Except.ok.injEq, Prod.mk.injEq, Option.some.injEq]
      exact and_congr_right fun _ => eq_comm

/-- Sequencing after a completed first part. -/
theorem bind_of_ok {program : Exec ε σ α} {next : α → Exec ε σ β} {state middle : σ} {value : α}
    (done : program.run state = .ok (value, middle)) :
    (program >>= next).run state = (next value).run middle := by
  change (andThen program next).run state = _
  simp only [andThen, run_of, done]

/-- A fault ends the sequence. -/
theorem bind_of_error {program : Exec ε σ α} {next : α → Exec ε σ β} {state : σ} {reason : ε}
    (stopped : program.run state = .error reason) :
    (program >>= next).run state = .error reason := by
  change (andThen program next).run state = _
  simp only [andThen, run_of, stopped]

/-- A completed sequence splits into its two completed parts. -/
theorem bind_eq_ok {program : Exec ε σ α} {next : α → Exec ε σ β} {state final : σ} {result : β} :
    (program >>= next).run state = .ok (result, final) ↔
      ∃ value middle, program.run state = .ok (value, middle) ∧
        (next value).run middle = .ok (result, final) := by
  constructor
  · intro run
    cases first : program.run state with
    | error fault =>
        change (andThen program next).run state = _ at run
        simp only [andThen, run_of, first, reduceCtorEq] at run
    | ok done =>
        obtain ⟨value, middle⟩ := done
        rw [bind_of_ok first] at run
        exact ⟨value, middle, rfl, run⟩
  · rintro ⟨value, middle, first, rest⟩
    rw [bind_of_ok first]
    exact rest

/-- Continuations that agree after every completed first part give the same run. -/
theorem bind_congr {program : Exec ε σ α} {first second : α → Exec ε σ β} {state : σ}
    (same : ∀ value middle, program.run state = .ok (value, middle) →
      (first value).run middle = (second value).run middle) :
    (program >>= first).run state = (program >>= second).run state := by
  cases done : program.run state with
  | error reason => rw [bind_of_error done, bind_of_error done]
  | ok result => rw [bind_of_ok done, bind_of_ok done, same _ _ done]

/-- Programs that run alike have the same sequences. -/
theorem bind_run_eq {first second : Exec ε σ α} {next : α → Exec ε σ β} {state : σ}
    (same : first.run state = second.run state) :
    (first >>= next).run state = (second >>= next).run state := by
  change (andThen first next).run state = (andThen second next).run state
  simp only [andThen, run_of, same]

theorem bind_assoc {γ : Type} (program : Exec ε σ α) (first : α → Exec ε σ β)
    (second : β → Exec ε σ γ) (state : σ) :
    (program >>= first >>= second).run state =
      (program >>= fun value => first value >>= second).run state := by
  cases done : program.run state with
  | error reason => rw [bind_of_error done, bind_of_error (bind_of_error done)]
  | ok result =>
      rw [bind_of_ok done]
      cases next : (first result.1).run result.2 with
      | error reason => rw [bind_of_error next, bind_of_error ((bind_of_ok done).trans next)]
      | ok last => rw [bind_of_ok next, bind_of_ok ((bind_of_ok done).trans next)]

/-- Run a program on one component of the state. -/
def zoom {τ : Type} (view : σ → τ) (put : σ → τ → σ) (program : Exec ε τ α) : Exec ε σ α :=
  of fun state =>
    match program.run (view state) with
    | .error reason => .error reason
    | .ok (value, part) => .ok (value, put state part)

theorem zoom_of_ok {τ : Type} {view : σ → τ} {put : σ → τ → σ} {program : Exec ε τ α}
    {state : σ} {value : α} {part : τ} (done : program.run (view state) = .ok (value, part)) :
    (zoom view put program).run state = .ok (value, put state part) := by
  simp only [zoom, run_of, done]

theorem zoom_eq_ok {τ : Type} {view : σ → τ} {put : σ → τ → σ} {program : Exec ε τ α}
    {state final : σ} {value : α} :
    (zoom view put program).run state = .ok (value, final) ↔
      ∃ part, program.run (view state) = .ok (value, part) ∧ final = put state part := by
  cases done : program.run (view state) with
  | error reason => simp only [zoom, run_of, done, reduceCtorEq, false_and, exists_false]
  | ok result =>
      obtain ⟨found, part⟩ := result
      simp only [zoom, run_of, done, Except.ok.injEq, Prod.mk.injEq]
      constructor
      · rintro ⟨rfl, rfl⟩
        exact ⟨part, ⟨rfl, rfl⟩, rfl⟩
      · rintro ⟨_, ⟨rfl, rfl⟩, rfl⟩
        exact ⟨rfl, rfl⟩

/-- Completed runs from states with the invariant end in such states, with results that
satisfy `post`. -/
def Ensures (invariant : σ → Prop) (program : Exec ε σ α) (post : α → Prop) : Prop :=
  ∀ state value final, invariant state → program.run state = .ok (value, final) →
    invariant final ∧ post value

namespace Ensures

variable {invariant : σ → Prop} {post : α → Prop}

theorem pure {value : α} (result : post value) :
    Ensures invariant (Pure.pure value : Exec ε σ α) post := by
  intro state found final holds run
  cases run
  exact ⟨holds, result⟩

theorem fault (reason : ε) : Ensures invariant (Exec.fault reason : Exec ε σ α) post := by
  intro state found final _ run
  cases run

theorem read {view : σ → α} (viewed : ∀ state, invariant state → post (view state)) :
    Ensures invariant (Exec.read view : Exec ε σ α) post := by
  intro state found final holds run
  cases run
  exact ⟨holds, viewed state holds⟩

theorem update {change : σ → σ} (kept : ∀ state, invariant state → invariant (change state)) :
    Ensures invariant (Exec.update change : Exec ε σ Unit) fun _ => True := by
  intro state found final holds run
  cases run
  exact ⟨kept state holds, trivial⟩

theorem demand {reason : ε} {view : σ → Option α}
    (viewed : ∀ state value, invariant state → view state = some value → post value) :
    Ensures invariant (Exec.demand reason view : Exec ε σ α) post := by
  intro state value final holds run
  obtain ⟨present, rfl⟩ := demand_eq_ok.mp run
  exact ⟨holds, viewed _ value holds present⟩

theorem bind {program : Exec ε σ α} {next : α → Exec ε σ β} {goal : β → Prop}
    (first : Ensures invariant program post)
    (rest : ∀ value, post value → Ensures invariant (next value) goal) :
    Ensures invariant (program >>= next) goal := by
  intro state result final holds run
  obtain ⟨value, middle, started, ended⟩ := bind_eq_ok.mp run
  obtain ⟨held, found⟩ := first state value middle holds started
  exact rest value found middle result final held ended

theorem ite {condition : Prop} [Decidable condition] {left right : Exec ε σ α}
    (first : condition → Ensures invariant left post)
    (second : ¬ condition → Ensures invariant right post) :
    Ensures invariant (if condition then left else right) post := by
  split
  next holds => exact first holds
  next fails => exact second fails

theorem mono {program : Exec ε σ α} {weaker : α → Prop} (holds : Ensures invariant program post)
    (implies : ∀ value, post value → weaker value) : Ensures invariant program weaker := by
  intro state value final held run
  obtain ⟨kept, found⟩ := holds state value final held run
  exact ⟨kept, implies value found⟩

end Ensures

end Exec
