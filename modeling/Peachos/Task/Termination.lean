import Peachos.Foundation.RoundRobin
import Peachos.Task.ProcessBoot

/-! # Terminated processes

An exception clears the slot of the current process and leaves its task in the list. The task
therefore runs again once the round robin comes back to it (`raised_not_resumed_iff`).
-/

namespace Peachos

open CInt RoundRobin

/-- What happened: a process was loaded or not, or an interrupt, in which the task `raised` raised
an exception and the task `resumed` continues. -/
inductive ProcessEvent where
  | loaded (process : Nat)
  | notLoaded
  | clock (resumed : Nat)
  | exception (raised resumed : Nat)

/-- One event. The exceptions are those whose vectors lead to `interrupt_handler`. -/
inductive ProcessStep (read : StreamRead) : Kernel → ProcessEvent → Kernel → Prop
  | loaded {kernel next : Kernel} {filename : List UInt8} {process : Nat}
      (run : (processLoad read filename).run kernel = .ok ((0, process), next)) :
      ProcessStep read kernel (.loaded process) next
  | notLoaded {kernel next : Kernel} {filename : List UInt8} {res : Int} {process : Nat}
      (failed : res < 0) (run : (processLoad read filename).run kernel = .ok ((res, process), next)) :
      ProcessStep read kernel .notLoaded next
  | clock {kernel next : Kernel} {frame : InterruptFrame} {resumed : Nat}
      (run : (interruptHandler 0x20 frame).run kernel = .ok (some resumed, next)) :
      ProcessStep read kernel (.clock resumed) next
  | exception {kernel next : Kernel} {interrupt : Nat} {frame : InterruptFrame} {resumed : Nat}
      (positive : 1 ≤ interrupt) (exception : interrupt < 0x20)
      (run : (interruptHandler interrupt frame).run kernel = .ok (some resumed, next)) :
      ProcessStep read kernel (.exception kernel.currentTask resumed) next

/-- Runs of events that meet a condition, with the events so far. -/
inductive ProcessRun (read : StreamRead)
    (allowed : List ProcessEvent → Kernel → ProcessEvent → Prop) (start : Kernel) :
    List ProcessEvent → Kernel → Prop
  | start : ProcessRun read allowed start [] start
  | step {history : List ProcessEvent} {kernel next : Kernel} {event : ProcessEvent}
      (before : ProcessRun read allowed start history kernel) (may : allowed history kernel event)
      (step : ProcessStep read kernel event next) :
      ProcessRun read allowed start (history ++ [event]) next

/-- The effect of an event on the ring of tasks. -/
def ringEvent : ProcessEvent → List RoundRobin.Event
  | .loaded _ => [.grow]
  | .notLoaded => []
  | .clock _ => [.advance]
  | .exception _ _ => [.advance]

/-- The ring of tasks after the events. -/
def ringAfter (history : List ProcessEvent) : Ring :=
  (history.flatMap ringEvent).foldl Ring.step ⟨0, 0⟩

/-- The records are those of a ring with the cursor at the current task. -/
structure RingState (region : KernelRegion) (live : List Allocation)
    (records : List LoadedProcess) (ring : Ring) (kernel : Kernel) : Prop where
  state : LoadedState region live records kernel
  size : records.length = ring.size
  current : records ≠ [] → (records.map taskOf)[ring.cursor]? = some kernel.currentTask
  empty : records = [] → ring.cursor = 0

section Ring

variable {region : KernelRegion} {live : List Allocation} {records : List LoadedProcess}
  {ring : Ring} {kernel next : Kernel} {read : StreamRead}

/-- The tasks are distinct: only the position of the current one holds it. -/
theorem RingState.current_iff (state : RingState region live records ring kernel)
    {position task : Nat} (here : (records.map taskOf)[position]? = some task) :
    kernel.currentTask = task ↔ ring.cursor = position := by
  have nonempty : records ≠ [] := by
    rintro rfl
    cases here
  have now := state.current nonempty
  constructor
  · rintro rfl
    have distinct := state.state.tasks.list.nodup
    rw [LoadedState.map_tasks] at distinct
    exact (List.getElem?_inj (List.getElem?_eq_some_iff.mp now).1 distinct).mp (now.trans here.symm)
  · rintro rfl
    exact Option.some.inj (now.symm.trans here)

/-- A loaded process comes last in the ring. -/
theorem RingState.load (state : RingState region live records ring kernel) {live' : List Allocation}
    {record : LoadedProcess} (loaded : ProcessLoaded region live live' records kernel next record) :
    RingState region live' (records ++ [record]) (ring.step .grow) next where
  state := loaded.state
  size := by
    rw [List.length_append, state.size]
    rfl
  current := by
    intro _
    have head := state.state.tasks.list.head
    rw [LoadedState.map_tasks] at head
    cases records with
    | nil =>
        have none : kernel.taskHead = 0 := head
        rw [loaded.current, if_pos none, show (ring.step .grow).cursor = ring.cursor from rfl,
          state.empty rfl]
        rfl
    | cons first rest =>
        have notNull : kernel.taskHead ≠ 0 := by
          rw [head]
          intro null
          apply state.state.tasks.list.notNull
          rw [LoadedState.map_tasks, ← null]
          exact List.mem_cons_self
        have here := state.current (List.cons_ne_nil _ _)
        rw [loaded.current, if_neg notNull, List.map_append]
        exact (List.getElem?_append_left (List.getElem?_eq_some_iff.mp here).1).trans here
  empty := fun none => absurd none (List.append_ne_nil_of_right_ne_nil _ (List.cons_ne_nil _ _))

/-- The record at the cursor is that of the interrupted task. -/
theorem RingState.interrupted (state : RingState region live records ring kernel) {interrupt : Nat}
    (callback : interrupt ≤ 0x20) {frame : InterruptFrame} {result : Option Nat}
    (run : (interruptHandler interrupt frame).run kernel = .ok (result, next)) :
    ∃ record, records[ring.cursor]? = some record ∧ kernel.currentTask = taskOf record := by
  obtain ⟨value, _, _, _, _, found, _⟩ := interruptHandler_completed callback run
  have nonempty : records ≠ [] := by
    rintro rfl
    have null := state.state.tasks.list.currentNull.mpr rfl
    rw [null, state.state.tasks.invariant.null] at found
    cases found
  have here := state.current nonempty
  rw [List.getElem?_map] at here
  obtain ⟨record, present, current⟩ := Option.map_eq_some_iff.mp here
  exact ⟨record, present, current.symm⟩

/-- An interrupt advances the cursor of the ring. -/
theorem RingState.interrupt (state : RingState region live records ring kernel) {interrupt : Nat}
    (callback : interrupt ≤ 0x20) {frame : InterruptFrame} {resumed : Nat}
    (run : (interruptHandler interrupt frame).run kernel = .ok (some resumed, next)) :
    resumed = next.currentTask ∧ ring.cursor < ring.size ∧
      RingState region live records (ring.step .advance) next := by
  obtain ⟨record, present, current⟩ := state.interrupted callback run
  have inside := (List.getElem?_eq_some_iff.mp present).1
  obtain ⟨same, state', _, following, _⟩ :=
    interrupt_completed state.state present current callback run
  rw [state.size] at inside following
  exact ⟨Option.some.inj same, inside, state', state.size, fun _ => following,
    fun none => absurd (none ▸ present) nofun⟩

/-- One event moves the ring as it moves the tasks. -/
theorem RingState.step (state : RingState region live records ring kernel) {event : ProcessEvent}
    (step : ProcessStep read kernel event next) : ∃ live' added,
      RingState region live' (records ++ added) ((ringEvent event).foldl Ring.step ring) next := by
  cases step with
  | loaded run =>
      rcases processLoad_completed state.state run with ⟨negative, _⟩ | ⟨_, live', record, _, loaded⟩
      · dsimp only at negative
        omega
      · exact ⟨live', [record], state.load loaded⟩
  | notLoaded failed run =>
      rcases processLoad_completed state.state run with
        ⟨_, live', failed⟩ | ⟨zero, _⟩
      · refine ⟨live', [], ?_⟩
        rw [List.append_nil]
        exact ⟨failed.state, state.size, fun some => failed.current ▸ state.current some,
          state.empty⟩
      · dsimp only at zero
        omega
  | clock run =>
      refine ⟨live, [], ?_⟩
      rw [List.append_nil]
      exact (state.interrupt (by decide) run).2.2
  | exception _ exception run =>
      refine ⟨live, [], ?_⟩
      rw [List.append_nil]
      exact (state.interrupt (Nat.le_of_lt exception) run).2.2

/-- The ring over a run. -/
theorem ProcessRun.ringState {allowed : List ProcessEvent → Kernel → ProcessEvent → Prop}
    {start : Kernel} {history : List ProcessEvent} (none : NoProcesses region live start)
    (run : ProcessRun read allowed start history kernel) :
    ∃ live' records, RingState region live' records (ringAfter history) kernel := by
  induction run with
  | start =>
      exact ⟨live, [], none.state, rfl, fun some => absurd rfl some, fun _ => rfl⟩
  | step before may step ih =>
      obtain ⟨live', records, state⟩ := ih
      obtain ⟨live'', added, state'⟩ := state.step step
      refine ⟨live'', records ++ added, ?_⟩
      rw [ringAfter, List.flatMap_append, List.foldl_append, List.flatMap_singleton]
      exact state'

end Ring

/-- The events after a state. -/
inductive Continued (read : StreamRead) : Kernel → List ProcessEvent → Kernel → Prop
  | stop {kernel : Kernel} : Continued read kernel [] kernel
  | step {kernel middle final : Kernel} {event : ProcessEvent} {events : List ProcessEvent}
      (step : ProcessStep read kernel event middle) (rest : Continued read middle events final) :
      Continued read kernel (event :: events) final

/-- The task that the event continues. -/
def resumedBy : ProcessEvent → List Nat
  | .loaded _ => []
  | .notLoaded => []
  | .clock resumed => [resumed]
  | .exception _ resumed => [resumed]

section Resume

variable {region : KernelRegion} {live : List Allocation} {read : StreamRead}

/-- A task is continued when the cursor visits its position. -/
theorem resumed_iff_visits {events : List ProcessEvent} :
    ∀ {live : List Allocation} {records : List LoadedProcess} {ring : Ring}
      {kernel final : Kernel} {position task : Nat},
      RingState region live records ring kernel → (records.map taskOf)[position]? = some task →
      Continued read kernel events final →
      (task ∈ events.flatMap resumedBy ↔ Visits position ring (events.flatMap ringEvent)) := by
  induction events with
  | nil => exact fun _ _ _ => iff_of_false List.not_mem_nil id
  | cons event events ih =>
      intro live records ring kernel final position task state here run
      obtain ⟨middle, step, rest⟩ : ∃ middle, ProcessStep read kernel event middle ∧
          Continued read middle events final := by
        cases run with
        | step step rest => exact ⟨_, step, rest⟩
      obtain ⟨live', added, state'⟩ := state.step step
      have there : ((records ++ added).map taskOf)[position]? = some task := by
        rw [List.map_append]
        exact (List.getElem?_append_left (List.getElem?_eq_some_iff.mp here).1).trans here
      have later := ih state' there rest
      rw [List.flatMap_cons, List.flatMap_cons, List.mem_append, later]
      have switched {interrupt : Nat} (callback : interrupt ≤ 0x20) {frame : InterruptFrame}
          {resumed : Nat} (run : (interruptHandler interrupt frame).run kernel =
            .ok (some resumed, middle)) (advance : (ringEvent event).foldl Ring.step ring =
              ring.step .advance) : task ∈ [resumed] ↔
            (ring.step .advance).cursor = position := by
        rw [List.mem_singleton, (state.interrupt callback run).1, eq_comm, ← advance]
        exact state'.current_iff there
      cases step with
      | loaded _ => exact or_iff_right List.not_mem_nil
      | notLoaded _ _ => exact or_iff_right List.not_mem_nil
      | clock run => exact or_congr (switched (by decide) run rfl) Iff.rfl
      | exception _ exception run =>
          exact or_congr (switched (Nat.le_of_lt exception) run rfl) Iff.rfl

/-- **The task of a terminated process.** It continues exactly if the interrupts from its
exception on carry the round robin past the end of the list and then up to its position. -/
theorem raised_not_resumed_iff {start kernel final : Kernel} {history events : List ProcessEvent}
    {raised resumed : Nat} (none : NoProcesses region live start)
    (before : ProcessRun read (fun _ _ _ => True) start history kernel)
    (after : Continued read kernel (.exception raised resumed :: events) final) :
    raised ∉ (ProcessEvent.exception raised resumed :: events).flatMap resumedBy ↔
      ∀ first second,
        (ProcessEvent.exception raised resumed :: events).flatMap ringEvent = first ++ second →
        (ringAfter history).cursor + advances first = (ringAfter history).size + grows first →
        advances second < (ringAfter history).cursor := by
  obtain ⟨live', records, state⟩ := before.ringState none
  obtain ⟨inside, here⟩ : (ringAfter history).cursor < (ringAfter history).size ∧
      (records.map taskOf)[(ringAfter history).cursor]? = some raised := by
    cases after with
    | step step _ =>
        cases step with
        | exception _ exception run =>
            have inside := (state.interrupt (Nat.le_of_lt exception) run).2.1
            refine ⟨inside, state.current ?_⟩
            rw [← List.length_pos_iff, state.size]
            exact Nat.zero_lt_of_lt inside
  rw [resumed_iff_visits state here after, visits_start_iff inside]
  simp only [not_exists, not_and, not_le]

/-- The next task of a loaded process that raises an exception. -/
theorem exception_step {records : List LoadedProcess} {kernel : Kernel}
    (state : LoadedState region live records kernel) {position : Nat} {record : LoadedProcess}
    (here : records[position]? = some record) (current : kernel.currentTask = taskOf record)
    (inside : record.id < peachosMaxProcesses) (paged : KernelPaged live kernel) :
    ∃ resumed next, ProcessStep read kernel (.exception (taskOf record) resumed) next ∧
      LoadedState region live records next ∧
      (records.map taskOf)[if position + 1 < records.length then position + 1 else 0]? =
        some resumed ∧
      next.currentTask = resumed ∧ next.processes = kernel.processes.set record.id 0 ∧
      (∀ old ∈ records, old.Kept kernel next) ∧
      (∀ used, Packed region live kernel used → Packed region live next used) ∧
      KernelPaged live next := by
  obtain ⟨resumed, next, run⟩ := exception_progress state (List.mem_of_getElem? here) current
    inside paged (show 14 < 0x20 by decide) ⟨0, 0, 0, 0, 0, 0, 0, 0, 0, 0, 0, 0, 0⟩
  obtain ⟨same, state', kept, following, table⟩ :=
    interrupt_completed state here current (by decide) run
  obtain rfl := Option.some.inj same
  have step : ProcessStep read kernel (.exception kernel.currentTask next.currentTask) next :=
    .exception (by decide) (by decide) run
  rw [current] at step
  refine ⟨_, next, step, state', following, rfl, ?_, kept,
    fun used packed => interruptHandler_packed packed (by decide) run,
    interruptHandler_paged paged (by decide) run⟩
  · rcases table with ⟨clock, _⟩ | ⟨_, cleared⟩
    · exact absurd clock (by decide)
    · exact cleared

end Resume

/-- The task of the only process continues after its exception. -/
theorem raised_resumed_boot : ¬ ∀ live start history kernel events final raised resumed,
    NoProcesses kernelHeapRegion live start →
    ProcessRun diskstreamerRead (fun _ _ _ => True) start history kernel →
    Continued diskstreamerRead kernel (.exception raised resumed :: events) final →
    raised ∉ (ProcessEvent.exception raised resumed :: events).flatMap resumedBy := by
  intro never
  obtain ⟨live, start, live', record, kernel, none, run, state, first, _, current, _, paged⟩ :=
    bootLoaded diskstreamerRead []
  obtain ⟨resumed, next, step, _, following, _⟩ := @exception_step _ _ diskstreamerRead _ _
    state 0 record rfl current (by rw [first]; decide) paged
  obtain rfl : taskOf record = resumed := Option.some.inj following
  exact never live start _ kernel [] next _ _ none (ProcessRun.start.step trivial (.loaded run))
    (.step step .stop) List.mem_cons_self

/-- With a second process the first one stays behind for as long as that one runs. -/
theorem raised_not_resumed_boot : ∃ live start history kernel raised resumed next,
    NoProcesses kernelHeapRegion live start ∧
    ProcessRun diskstreamerRead (fun _ _ _ => True) start history kernel ∧
    Continued diskstreamerRead kernel [.exception raised resumed] next ∧
    raised ∉ [ProcessEvent.exception raised resumed].flatMap resumedBy := by
  obtain ⟨live, start, live', first, middle, none, run, state, zero, stored, current, packed,
    paged⟩ := bootLoaded diskstreamerRead []
  have free : middle.processes[1]? = some 0 := by
    rw [stored, List.getElem?_set_ne (by decide), none.slots]
    rfl
  obtain ⟨live'', second, kernel, run', loaded, _, paged'⟩ :=
    processLoad_progress diskstreamerRead [] state packed paged free (by decide)
  have before : ProcessRun diskstreamerRead (fun _ _ _ => True) start
      ([] ++ [.loaded first.process] ++ [.loaded second.process]) kernel :=
    (ProcessRun.start.step trivial (.loaded run)).step trivial (.loaded run')
  have still : kernel.currentTask = taskOf first := by
    rw [loaded.current, if_neg, current]
    rw [state.tasks.list.head]
    exact fun null => state.tasks.list.notNull (null ▸ List.mem_cons_self)
  obtain ⟨resumed, next, step, _⟩ := @exception_step _ _ diskstreamerRead _ _
    loaded.state 0 first rfl still (by rw [zero]; decide) paged'
  have after : Continued diskstreamerRead kernel [.exception (taskOf first) resumed] next :=
    .step step .stop
  refine ⟨live, start, _, kernel, _, resumed, next, none, before, after,
    (raised_not_resumed_iff none before after).mpr fun head tail split wrapped => ?_⟩
  -- One interrupt does not pass the end of a list of two tasks.
  have short : advances (head ++ tail) = 1 := by
    rw [← split]
    rfl
  have size : (ringAfter ([] ++ [.loaded first.process] ++ [.loaded second.process])).size = 2 :=
    rfl
  have cursor :
      (ringAfter ([] ++ [.loaded first.process] ++ [.loaded second.process])).cursor = 0 := rfl
  rw [advances_append] at short
  omega

end Peachos
