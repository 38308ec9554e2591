import Peachos.Foundation.RoundRobin
import Peachos.Task.ProcessBoot

/-! # Rounds of the scheduler

The list of tasks is a ring on which `task_next` advances and which `task_new` lets grow. From any
current task one step for each task is one round, and tasks that are created in the meantime
change nothing in the order of the others (`tasks_round`).
-/

namespace Peachos

open RoundRobin

/-- What happens between two steps of the scheduler. -/
inductive RoundEvent where
  | next
  | new (process : Nat)
  deriving DecidableEq, Repr

/-- The effect on the ring of tasks. -/
def RoundEvent.ringEvent : RoundEvent → Event
  | .next => .advance
  | .new _ => .grow

/-- The number of steps. -/
def roundSteps (events : List RoundEvent) : Nat := advances (events.map RoundEvent.ringEvent)

/-- The number of new tasks. -/
def roundCreated (events : List RoundEvent) : Nat := grows (events.map RoundEvent.ringEvent)

/-- Let the events happen, with the tasks that the steps select. -/
def performRound : List RoundEvent → K (List Nat)
  | [] => pure []
  | .next :: events => do
      let task ← taskNext
      let selected ← performRound events
      pure (task :: selected)
  | .new process :: events => do
      let _ ← taskNew process
      performRound events

/-- The tasks that were created, after any switches between them. -/
inductive Created (start : Kernel) : List Nat → Kernel → Prop
  | start : Created start [] start
  | new {tasks : List Nat} {kernel next : Kernel} {process task : Nat}
      (before : Created start tasks kernel)
      (run : (taskNew process).run kernel = .ok (task, next)) : Created start (tasks ++ [task]) next
  | switch {tasks : List Nat} {kernel next : Kernel} {task : Nat}
      (before : Created start tasks kernel) (member : task ∈ tasks)
      (run : (taskSwitch task).run kernel = .ok ((), next)) : Created start tasks next

/-- A run without `task_free`. -/
theorem TaskRun.created {start kernel : Kernel} {tasks : List Nat}
    (run : TaskRun (fun _ _ => False) start tasks kernel) : Created start tasks kernel := by
  induction run with
  | start => exact .start
  | new _ run ih => exact ih.new run
  | free _ _ may _ _ => exact may.elim

section Round

variable {region : KernelRegion} {live : List Allocation} {memories : List TaskMemory}
  {kernel next : Kernel}

/-- The tasks of a state. -/
def tasksOf (memories : List TaskMemory) : List Nat := memories.map TaskMemory.task

@[simp] theorem tasksOf_length (memories : List TaskMemory) :
    (tasksOf memories).length = memories.length :=
  List.length_map _

@[simp] theorem tasksOf_concat (memories : List TaskMemory) (memory : TaskMemory) :
    tasksOf (memories ++ [memory]) = tasksOf memories ++ [memory.task] :=
  List.map_append

theorem tasksOf_append {memories memories' : List TaskMemory} (grown : memories <+: memories') :
    tasksOf memories <+: tasksOf memories' :=
  grown.map TaskMemory.task

/-- The tasks are those of a ring with the cursor at the current one. -/
structure Cursor (region : KernelRegion) (live : List Allocation) (memories : List TaskMemory)
    (ring : Ring) (kernel : Kernel) : Prop where
  state : TaskState region live memories kernel
  size : memories.length = ring.size
  current : (tasksOf memories)[ring.cursor]? = some kernel.currentTask

theorem Cursor.inside {ring : Ring} (at' : Cursor region live memories ring kernel) :
    ring.cursor < ring.size := by
  obtain ⟨inside, _⟩ := List.getElem?_eq_some_iff.mp at'.current
  rwa [tasksOf_length, at'.size] at inside

/-- **One step.** It completes and selects the task after the current one. -/
theorem Cursor.advance {ring : Ring} (at' : Cursor region live memories ring kernel) :
    ∃ task next, taskNext.run kernel = .ok (task, next) ∧
      (tasksOf memories)[(ring.step .advance).cursor]? = some task ∧
      Cursor region live memories (ring.step .advance) next := by
  have nonempty : memories ≠ [] := by
    intro none
    have inside := at'.inside
    rw [← at'.size, none] at inside
    exact absurd inside (Nat.not_lt_zero _)
  obtain ⟨task, next, run⟩ := taskNext_progress at'.state nonempty
  obtain ⟨value, directory, found, same, rfl⟩ := taskNext_completed run
  have following := at'.state.list.getNext at'.current found
  rw [← same, ← tasksOf, tasksOf_length, at'.size] at following
  refine ⟨task, _, run, following, ?_, at'.size, following⟩
  exact at'.state.switch rfl rfl rfl rfl (List.mem_of_getElem? following)

/-- **One new task.** It comes last, and the current task stays. -/
theorem Cursor.create {ring : Ring} (at' : Cursor region live memories ring kernel)
    {process task : Nat} (run : (taskNew process).run kernel = .ok (task, next)) :
    ∃ live' memory, Cursor region live' (memories ++ [memory]) (ring.step .grow) next := by
  obtain ⟨live', memory, _, made⟩ := taskNew_spec at'.state run
  have headHere : kernel.taskHead ≠ 0 := by
    rw [at'.state.list.head]
    intro null
    cases memories with
    | nil => cases at'.current
    | cons first rest => exact at'.state.list.notNull (null ▸ List.mem_cons_self)
  refine ⟨live', memory, made.state, ?_, ?_⟩
  · simp [Ring.step, at'.size]
  · have before : ring.cursor < (tasksOf memories).length := by
      simpa [at'.size] using at'.inside
    rw [made.current, if_neg headHere, ← at'.current]
    simp [Ring.step, List.getElem?_append_left before]

/-- **A run.** The steps select the tasks at the positions of the cursor. -/
theorem Cursor.perform {events : List RoundEvent} : ∀ {live : List Allocation}
    {memories : List TaskMemory} {ring : Ring} {kernel : Kernel} {selected : List Nat},
    Cursor region live memories ring kernel →
    (performRound events).run kernel = .ok (selected, next) →
    ∃ live' memories', memories <+: memories' ∧ Cursor region live' memories'
        ((events.map RoundEvent.ringEvent).foldl Ring.step ring) next ∧
      selected.map some = (positions ring (events.map RoundEvent.ringEvent)).map
        fun position => (tasksOf memories')[position]? := by
  induction events with
  | nil =>
      intro live memories ring kernel selected at' run
      cases run
      exact ⟨live, memories, List.prefix_refl _, at', rfl⟩
  | cons event events ih =>
      intro live memories ring kernel selected at' run
      cases event with
      | next =>
          obtain ⟨task, middle, step, found, at''⟩ := at'.advance
          rw [performRound, Exec.bind_of_ok step] at run
          obtain ⟨later, last, rest, done⟩ := Exec.bind_eq_ok.mp run
          cases done
          obtain ⟨live', memories', grown, final, same⟩ := ih at'' rest
          refine ⟨live', memories', grown, final, ?_⟩
          obtain ⟨inside, rfl⟩ := List.getElem?_eq_some_iff.mp found
          have still := List.prefix_iff_getElem?.mp (tasksOf_append grown) _ inside
          rw [List.map_cons, same]
          simp [positions, RoundEvent.ringEvent, still]
      | new process =>
          obtain ⟨task, middle, created, rest⟩ := Exec.bind_eq_ok.mp run
          obtain ⟨live'', memory, at''⟩ := at'.create created
          obtain ⟨live', memories', grown, final, same⟩ := ih at'' rest
          exact ⟨live', memories', (List.prefix_append _ _).trans grown, final, same⟩

/-- Steps without new tasks complete. -/
theorem Cursor.steps (count : Nat) : ∀ {ring : Ring} {kernel : Kernel},
    Cursor region live memories ring kernel →
    ∃ selected next, (performRound (List.replicate count .next)).run kernel =
      .ok (selected, next) := by
  induction count with
  | zero => exact fun _ => ⟨_, _, rfl⟩
  | succ count ih =>
      intro ring kernel at'
      obtain ⟨task, middle, step, _, at''⟩ := at'.advance
      obtain ⟨selected, next, rest⟩ := ih at''
      refine ⟨task :: selected, next, ?_⟩
      rw [List.replicate_succ, performRound, Exec.bind_of_ok step, Exec.bind_of_ok rest,
        Exec.run_pure]

end Round

section Order

variable {tasks all : List Nat}

/-- Of the selected tasks, the former ones are at the former positions. -/
theorem selected_filter (grown : tasks <+: all) (nodup : all.Nodup) :
    ∀ {places selected : List Nat}, selected.map some = places.map (fun place => all[place]?) →
      (selected.filter (· ∈ tasks)).map some =
        (places.filter (· < tasks.length)).map fun place => tasks[place]? := by
  intro places
  induction places with
  | nil =>
      intro selected same
      rw [List.map_nil, List.map_eq_nil_iff] at same
      rw [same]
      rfl
  | cons place places ih =>
      intro selected same
      cases selected with
      | nil => cases same
      | cons task selected =>
          obtain ⟨here, rest⟩ := List.cons.inj same
          have former : task ∈ tasks ↔ place < tasks.length := by
            constructor
            · intro listed
              obtain ⟨index, inside, there⟩ := List.getElem_of_mem listed
              have found := List.prefix_iff_getElem?.mp grown index inside
              have present := (List.getElem?_eq_some_iff.mp found).1
              rw [there, here] at found
              rwa [← (List.getElem?_inj present nodup).mp found]
            · intro inside
              have found := here.trans (List.prefix_iff_getElem?.mp grown place inside)
              exact Option.some.inj found ▸ List.getElem_mem inside
          by_cases inside : place < tasks.length
          · have found := List.prefix_iff_getElem?.mp grown place inside
            rw [List.filter_cons_of_pos (by simpa using former.mpr inside),
              List.filter_cons_of_pos (by simpa using inside), List.map_cons, List.map_cons,
              ih rest, List.getElem?_eq_getElem inside, here.trans found]
          · rw [List.filter_cons_of_neg (by simpa [former] using inside),
              List.filter_cons_of_neg (by simpa using inside), ih rest]

end Order

/-- One step for each task selects each of them once, in the order of the list, and comes back to
the current one. -/
structure FullRound (tasks : List Nat) (position : Nat) (kernel : Kernel) : Prop where
  completes : ∃ next, (performRound (List.replicate tasks.length .next)).run kernel =
    .ok (tasks.rotate (position + 1), next) ∧ next.currentTask = kernel.currentTask
  once : ∀ task ∈ tasks, (tasks.rotate (position + 1)).count task = 1

/-- The selected tasks that were there at the start are selected in the order of the list, and
they have all been selected after enough steps. -/
structure KeepsOrder (tasks : List Nat) (position : Nat) (events : List RoundEvent)
    (selected : List Nat) : Prop where
  order : (selected.filter (· ∈ tasks)).take tasks.length <+: tasks.rotate (position + 1)
  cyclic : ∀ index task, (selected.filter (· ∈ tasks))[index]? = some task →
    tasks[(position + 1 + index) % tasks.length]? = some task
  complete : tasks.length + roundCreated events ≤ roundSteps events →
    (selected.filter (· ∈ tasks)).take tasks.length = tasks.rotate (position + 1)

section Fair

variable {region : KernelRegion} {live : List Allocation} {memories : List TaskMemory}
  {kernel next : Kernel} {tasks : List Nat} {position : Nat}

theorem Cursor.keepsOrder {events : List RoundEvent} {selected : List Nat}
    (at' : Cursor region live memories ⟨memories.length, position⟩ kernel)
    (run : (performRound events).run kernel = .ok (selected, next)) :
    KeepsOrder (tasksOf memories) position events selected := by
  have inside : position < memories.length := at'.inside
  have some : 0 < memories.length := Nat.zero_lt_of_lt inside
  have length := tasksOf_length memories
  obtain ⟨live', memories', grown, final, same⟩ := at'.perform run
  have kept := selected_filter (tasksOf_append grown) final.state.list.nodup same
  obtain ⟨count, order⟩ := @positions_filter memories.length (events.map RoundEvent.ringEvent)
    ⟨memories.length, position⟩ some le_rfl
  rw [length, order] at kept
  have size : (selected.filter (· ∈ tasksOf memories)).length = count := by
    simpa using congrArg List.length kept
  have found : ∀ index < count, (selected.filter (· ∈ tasksOf memories))[index]? =
      (tasksOf memories)[(position + 1 + index) % memories.length]? := by
    intro index before
    have here := congrArg (fun list => list[index]?) kept
    rw [List.getElem?_map, List.getElem?_map, cyclic_getElem? inside before, Option.map_some] at here
    obtain ⟨task, there, same⟩ := Option.map_eq_some_iff.mp here
    rw [there, same]
  have rotated : ∀ index < memories.length, ((tasksOf memories).rotate (position + 1))[index]? =
      (tasksOf memories)[(position + 1 + index) % memories.length]? := by
    intro index before
    rw [List.getElem?_rotate (by rwa [length]), length, Nat.add_comm index]
  have order : (selected.filter (· ∈ tasksOf memories)).take (tasksOf memories).length <+:
      (tasksOf memories).rotate (position + 1) := by
    refine List.prefix_iff_getElem?.mpr fun index before => ?_
    rw [List.length_take, length, size] at before
    rw [rotated index (by omega), ← found index (by omega), ← List.getElem?_eq_getElem,
      List.getElem?_take, if_pos (by omega)]
  refine ⟨order, fun index task here => ?_, fun enough => ?_⟩
  · have before := (List.getElem?_eq_some_iff.mp here).1
    rw [size] at before
    rw [length, ← found index before, here]
  · refine order.eq_of_length ?_
    have reached := @positions_enough memories.length (events.map RoundEvent.ringEvent)
      ⟨memories.length, position⟩ memories.length inside le_rfl le_rfl
    simp only [roundCreated, roundSteps, length] at enough
    rw [List.length_take, List.length_rotate, length, size]
    rw [‹(positions _ _).filter _ = _›, cyclic_length] at reached
    exact Nat.min_eq_left (reached enough fun _ => by simp only; omega)

theorem Cursor.fullRound (at' : Cursor region live memories ⟨memories.length, position⟩ kernel) :
    FullRound (tasksOf memories) position kernel := by
  have length := tasksOf_length memories
  obtain ⟨selected, next, run⟩ := at'.steps memories.length
  obtain ⟨live', memories', grown, final, same⟩ := at'.perform run
  have inside : position < memories.length := at'.inside
  simp only [List.map_replicate, RoundEvent.ringEvent, positions_replicate,
    foldl_replicate at'.inside] at same final
  obtain rfl : memories = memories' := grown.eq_of_length final.size.symm
  have back := final.current
  simp only [Nat.add_mod_right, Nat.mod_eq_of_lt inside, at'.current, Option.some.injEq] at back
  have chosen : selected = (tasksOf memories).rotate (position + 1) := by
    apply List.map_injective_iff.mpr (Option.some_injective Nat)
    rw [same]
    apply List.ext_getElem?
    intro index
    by_cases before : index < memories.length
    · rw [List.getElem?_map, cyclic_getElem? inside before, List.getElem?_map,
        List.getElem?_rotate (by rwa [length]), length, Nat.add_comm index, Option.map_some]
      have bound : (position + 1 + index) % memories.length < (tasksOf memories).length := by
        rw [length]
        exact Nat.mod_lt _ (Nat.zero_lt_of_lt inside)
      rw [List.getElem?_eq_getElem bound, Option.map_some]
    · rw [List.getElem?_eq_none (by simpa using before), List.getElem?_eq_none (by simpa using before)]
  refine ⟨⟨next, ?_, back.symm⟩, fun task listed => ?_⟩
  · rw [length, run, chosen]
  · exact List.count_eq_one_of_mem (List.nodup_rotate.mpr at'.state.list.nodup)
      (List.mem_rotate.mpr listed)

end Fair

/-- **The tasks of a run.** -/
theorem Created.state {region : KernelRegion} {live : List Allocation} {start kernel : Kernel}
    {tasks : List Nat} (inv : KernelInvariant region live start) (empty : TaskList [] start)
    (run : Created start tasks kernel) : ∃ live' memories, tasks = tasksOf memories ∧
      TaskState region live' memories kernel := by
  induction run with
  | start => exact ⟨live, [], rfl, inv, .nil, nofun, empty⟩
  | new before run ih =>
      obtain ⟨live', memories, rfl, state⟩ := ih
      obtain ⟨live'', memory, rfl, made⟩ := taskNew_spec state run
      exact ⟨live'', memories ++ [memory], by simp, made.state⟩
  | switch before member run ih =>
      obtain ⟨live', memories, rfl, state⟩ := ih
      obtain ⟨directory, rfl⟩ := taskSwitch_completed run
      exact ⟨live', memories, rfl, state.switch rfl rfl rfl rfl member⟩

/-- **The rounds of the scheduler.** From any current task, one step for each task is a full round.
With new tasks between the steps, the former tasks are still selected in their order. -/
theorem tasks_round {region : KernelRegion} {live : List Allocation} {start kernel : Kernel}
    {tasks : List Nat} (inv : KernelInvariant region live start) (empty : TaskList [] start)
    (run : Created start tasks kernel) {position : Nat}
    (here : tasks[position]? = some kernel.currentTask) :
    FullRound tasks position kernel ∧ ∀ events selected next,
      (performRound events).run kernel = .ok (selected, next) →
        KeepsOrder tasks position events selected := by
  obtain ⟨live', memories, rfl, state⟩ := run.state inv empty
  have at' : Cursor region live' memories ⟨memories.length, position⟩ kernel := ⟨state, rfl, here⟩
  exact ⟨at'.fullRound, fun events selected next done => at'.keepsOrder done⟩

/-- Two tasks of the booted kernel, the second of them the current one. -/
theorem tasks_round_boot : ∃ start first second kernel,
    Created start [first, second] kernel ∧ kernel.currentTask = second ∧
    FullRound [first, second] 1 kernel ∧ ∀ events selected next,
      (performRound events).run kernel = .ok (selected, next) →
        KeepsOrder [first, second] 1 events selected := by
  obtain ⟨_, start, live, kernel, live', first, second, _, inv, empty, state, run⟩ := bootTasks
  obtain ⟨value, pages, holds⟩ := state.holds second (by simp)
  have switched := (run _).created.switch (by simp) (taskSwitch_of_holds holds)
  exact ⟨start, _, _, _, switched, rfl, tasks_round inv empty switched rfl⟩

end Peachos
