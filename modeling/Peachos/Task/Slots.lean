import Peachos.Task.Termination

/-! # The slots of running processes

`process_terminate` clears the slot with the `id` of the process, whatever the slot holds by
then. Every running process stays in its slot as long as no task raises an exception again after
another process was loaded into the slot of its process (`stored_iff_apart`).
-/

namespace Peachos

open CInt RoundRobin

/-- The process that the event loads. -/
def loadedBy : ProcessEvent → List Nat
  | .loaded process => [process]
  | .notLoaded => []
  | .clock _ => []
  | .exception _ _ => []

/-- The task that raised the exception. -/
def raisedBy : ProcessEvent → List Nat
  | .loaded _ => []
  | .notLoaded => []
  | .clock _ => []
  | .exception raised _ => [raised]

/-- The process was loaded, and its own task has raised no exception. -/
structure Running (history : List ProcessEvent) (kernel : Kernel) (process : Nat)
    (value : Process) : Prop where
  loaded : process ∈ history.flatMap loadedBy
  here : kernel.objs process = some (.process value)
  unraised : value.task ∉ history.flatMap raisedBy

/-- Every running process is stored in the slot of its `id`. -/
def Stored (history : List ProcessEvent) (kernel : Kernel) : Prop :=
  ∀ process value, Running history kernel process value →
    kernel.processes[value.id]? = some process

/-- The process that an exception terminates. -/
def Terminates (kernel : Kernel) (process : Nat) (value : Process) : ProcessEvent → Prop
  | .exception raised _ => ∃ task, kernel.objs raised = some (.task task) ∧
      process = task.process ∧ kernel.objs process = some (.process value)
  | _ => False

/-- The slot that the event clears holds no other process. -/
def ClearsOwn (kernel : Kernel) (event : ProcessEvent) : Prop :=
  ∀ process value, Terminates kernel process value event →
    ∀ other, kernel.processes[value.id]? = some other → other = 0 ∨ other = process

/-- A task that raised an exception before raises the next one while no other running process has
the `id` of its process. -/
def Apart (history : List ProcessEvent) (kernel : Kernel) (event : ProcessEvent) : Prop :=
  ∀ process value, Terminates kernel process value event →
    value.task ∈ history.flatMap raisedBy →
    ∀ other value', Running history kernel other value' → other ≠ process → value'.id ≠ value.id

section Slots

variable {region : KernelRegion} {live : List Allocation} {records : List LoadedProcess}
  {history : List ProcessEvent} {kernel next : Kernel} {read : StreamRead} {event : ProcessEvent}

/-- The slots hold the running processes. -/
structure SlotState (region : KernelRegion) (live : List Allocation)
    (records : List LoadedProcess) (history : List ProcessEvent) (kernel : Kernel) : Prop where
  ring : RingState region live records (ringAfter history) kernel
  loaded : history.flatMap loadedBy = records.map LoadedProcess.process
  raised : history.flatMap raisedBy ⊆ records.map taskOf
  stored : ∀ record ∈ records, taskOf record ∉ history.flatMap raisedBy →
    kernel.processes[record.id]? = some record.process
  holds : ∀ index process, kernel.processes[index]? = some process → process ≠ 0 →
    ∃ record ∈ records, record.process = process ∧ record.id = index ∧
      taskOf record ∉ history.flatMap raisedBy

/-- The running processes are those of the records whose task raised no exception. -/
theorem SlotState.running_iff (state : SlotState region live records history kernel)
    {process : Nat} {value : Process} (here : kernel.objs process = some (.process value)) :
    Running history kernel process value ↔ ∃ record ∈ records, record.process = process ∧
      record.id = value.id ∧ taskOf record = value.task ∧
        taskOf record ∉ history.flatMap raisedBy := by
  constructor
  · intro running
    have loaded := running.loaded
    rw [state.loaded] at loaded
    obtain ⟨record, member, rfl⟩ := List.mem_map.mp loaded
    obtain ⟨value', there, sameId, sameTask⟩ := state.ring.state.process record member
    rw [here] at there
    cases there
    exact ⟨record, member, rfl, sameId.symm, sameTask.symm, by
      rw [taskOf, ← sameTask]
      exact running.unraised⟩
  · rintro ⟨record, member, rfl, _, sameTask, unraised⟩
    exact ⟨by rw [state.loaded]; exact List.mem_map_of_mem member, here, sameTask ▸ unraised⟩

theorem SlotState.all_stored (state : SlotState region live records history kernel) :
    Stored history kernel := by
  intro process value running
  obtain ⟨record, member, rfl, sameId, _, unraised⟩ := (state.running_iff running.here).mp running
  rw [← sameId]
  exact state.stored record member unraised

theorem SlotState.null_not_process (state : SlotState region live records history kernel)
    {record : LoadedProcess} (member : record ∈ records) : record.process ≠ 0 := by
  intro null
  obtain ⟨_, here, _⟩ := state.ring.state.process record member
  rw [null, state.ring.state.tasks.invariant.null] at here
  cases here

theorem SlotState.eq_of_process (state : SlotState region live records history kernel)
    {first second : LoadedProcess} (one : first ∈ records) (two : second ∈ records)
    (same : first.process = second.process) : first = second :=
  List.inj_on_of_nodup_map state.ring.state.distinct one two same

theorem SlotState.eq_of_task (state : SlotState region live records history kernel)
    {first second : LoadedProcess} (one : first ∈ records) (two : second ∈ records)
    (same : taskOf first = taskOf second) : first = second := by
  have distinct := state.ring.state.tasks.list.nodup
  rw [LoadedState.map_tasks] at distinct
  exact List.inj_on_of_nodup_map distinct one two same

/-- Events that load nothing and raise nothing leave the slots as they are. -/
theorem SlotState.quiet (state : SlotState region live records history kernel) {live' : List Allocation}
    (ring : RingState region live' records (ringAfter (history ++ [event])) next)
    (loads : loadedBy event = []) (raises : raisedBy event = [])
    (processes : next.processes = kernel.processes) :
    SlotState region live' records (history ++ [event]) next := by
  have raisedSame : (history ++ [event]).flatMap raisedBy = history.flatMap raisedBy := by
    rw [List.flatMap_append, List.flatMap_singleton, raises, List.append_nil]
  refine ⟨ring, ?_, ?_, ?_, ?_⟩
  · rw [List.flatMap_append, List.flatMap_singleton, loads, List.append_nil, state.loaded]
  · rw [raisedSame]
    exact state.raised
  · rw [raisedSame, processes]
    exact state.stored
  · rw [raisedSame, processes]
    exact state.holds

/-- The ring after one more event. -/
theorem ringAfter_concat (history : List ProcessEvent) (event : ProcessEvent) :
    ringAfter (history ++ [event]) = (ringEvent event).foldl Ring.step (ringAfter history) := by
  rw [ringAfter, List.flatMap_append, List.foldl_append, List.flatMap_singleton]
  rfl

/-- A process is stored in a slot that is free: no running process has its `id`. -/
theorem SlotState.load (state : SlotState region live records history kernel)
    {live' : List Allocation} {record : LoadedProcess}
    (loaded : ProcessLoaded region live live' records kernel next record) :
    SlotState region live' (records ++ [record]) (history ++ [.loaded record.process]) next := by
  have raisedSame : (history ++ [ProcessEvent.loaded record.process]).flatMap raisedBy =
      history.flatMap raisedBy := by
    rw [List.flatMap_append, List.flatMap_singleton]
    exact List.append_nil _
  have distinct := loaded.state.tasks.list.nodup
  rw [LoadedState.map_tasks, List.map_append, List.nodup_append] at distinct
  have fresh : taskOf record ∉ history.flatMap raisedBy := fun old =>
    distinct.2.2 _ (state.raised old) _ (List.mem_singleton_self _) rfl
  have inside := (List.getElem?_eq_some_iff.mp loaded.free).1
  refine ⟨?_, ?_, ?_, ?_, ?_⟩
  · rw [ringAfter_concat]
    exact state.ring.load loaded
  · rw [List.flatMap_append, List.map_append, state.loaded]
    rfl
  · rw [raisedSame, List.map_append]
    exact List.subset_append_of_subset_left _ state.raised
  · rw [raisedSame, loaded.stored]
    intro other member unraised
    rcases List.mem_append.mp member with old | new
    · have there := state.stored other old unraised
      have apart : record.id ≠ other.id := by
        intro same
        rw [← same, loaded.free] at there
        exact state.null_not_process old (Option.some.inj there).symm
      rw [List.getElem?_set_ne apart, there]
    · rw [List.mem_singleton.mp new, List.getElem?_set_self inside]
  · rw [raisedSame, loaded.stored]
    intro index process there notNull
    by_cases same : record.id = index
    · subst same
      rw [List.getElem?_set_self inside] at there
      exact ⟨record, List.mem_append_right _ (List.mem_singleton_self _), Option.some.inj there,
        rfl, fresh⟩
    · rw [List.getElem?_set_ne same] at there
      obtain ⟨other, old, rest⟩ := state.holds index process there notNull
      exact ⟨other, List.mem_append_left _ old, rest⟩

/-- The exception terminates the process of the interrupted task. -/
theorem SlotState.terminates_iff (state : SlotState region live records history kernel)
    {record : LoadedProcess} (member : record ∈ records)
    (current : kernel.currentTask = taskOf record) {resumed process : Nat} {value : Process} :
    Terminates kernel process value (.exception kernel.currentTask resumed) ↔
      process = record.process ∧ kernel.objs process = some (.process value) := by
  obtain ⟨task, taskHere, owner⟩ := state.ring.state.task record member
  rw [← taskOf, ← current] at taskHere
  constructor
  · rintro ⟨task', there, rfl, here⟩
    rw [taskHere] at there
    cases there
    exact ⟨owner, here⟩
  · rintro ⟨rfl, here⟩
    exact ⟨task, taskHere, owner.symm, here⟩

/-- The only running process with the `id` of the terminated one is that process. -/
theorem SlotState.owner (state : SlotState region live records history kernel)
    {record : LoadedProcess} (member : record ∈ records)
    (current : kernel.currentTask = taskOf record) {resumed : Nat}
    (apart : Apart history kernel (.exception kernel.currentTask resumed))
    {other : LoadedProcess} (listed : other ∈ records)
    (unraised : taskOf other ∉ history.flatMap raisedBy) (same : other.id = record.id) :
    other = record := by
  by_cases again : taskOf record ∈ history.flatMap raisedBy
  · obtain ⟨value, here, sameId, sameTask⟩ := state.ring.state.process record member
    obtain ⟨value', there, sameId', sameTask'⟩ := state.ring.state.process other listed
    by_contra different
    refine apart record.process value ((state.terminates_iff member current).mpr ⟨rfl, here⟩)
      (by rw [sameTask]; exact again) other.process value' ((state.running_iff there).mpr
        ⟨other, listed, rfl, sameId'.symm, sameTask'.symm, unraised⟩)
      (fun equal => different (state.eq_of_process listed member equal)) ?_
    rw [sameId, sameId', same]
  · have own := state.stored record member again
    have its := state.stored other listed unraised
    rw [same, own] at its
    exact (state.eq_of_process member listed (Option.some.inj its)).symm

/-- An exception clears the slot of the process it terminates. -/
theorem SlotState.exception (state : SlotState region live records history kernel)
    {interrupt : Nat} (exception : interrupt < 0x20) {frame : InterruptFrame} {resumed : Nat}
    (run : (interruptHandler interrupt frame).run kernel = .ok (some resumed, next))
    (apart : Apart history kernel (.exception kernel.currentTask resumed)) :
    SlotState region live records (history ++ [.exception kernel.currentTask resumed]) next := by
  obtain ⟨record, present, current⟩ := state.ring.interrupted (Nat.le_of_lt exception) run
  have member := List.mem_of_getElem? present
  obtain ⟨_, _, _, _, table⟩ := interrupt_completed state.ring.state present current
    (Nat.le_of_lt exception) run
  have cleared : next.processes = kernel.processes.set record.id 0 := by
    rcases table with ⟨clock, _⟩ | ⟨_, cleared⟩
    · omega
    · exact cleared
  have raisedNow : ∀ task, task ∈ (history ++ [ProcessEvent.exception kernel.currentTask
      resumed]).flatMap raisedBy ↔ task ∈ history.flatMap raisedBy ∨ task = taskOf record := by
    intro task
    rw [List.flatMap_append, List.flatMap_singleton, List.mem_append, raisedBy,
      List.mem_singleton, current]
  refine ⟨?_, ?_, ?_, ?_, ?_⟩
  · rw [ringAfter_concat]
    exact (state.ring.interrupt (Nat.le_of_lt exception) run).2.2
  · rw [List.flatMap_append, List.flatMap_singleton, state.loaded]
    exact List.append_nil _
  · intro task listed
    rcases (raisedNow task).mp listed with old | rfl
    · exact state.raised old
    · exact List.mem_map_of_mem member
  · intro other listed unraised
    rw [raisedNow, not_or] at unraised
    have different : record.id ≠ other.id := fun same => unraised.2
      (congrArg taskOf (state.owner member current apart listed unraised.1 same.symm))
    rw [cleared, List.getElem?_set_ne different]
    exact state.stored other listed unraised.1
  · intro index process there notNull
    rw [cleared] at there
    have different : record.id ≠ index := by
      rintro rfl
      rw [List.getElem?_set_self' ] at there
      obtain ⟨_, _, null⟩ := Option.map_eq_some_iff.mp there
      exact notNull null.symm
    rw [List.getElem?_set_ne different] at there
    obtain ⟨other, listed, here, sameId, unraised⟩ := state.holds index process there notNull
    refine ⟨other, listed, here, sameId, ?_⟩
    rw [raisedNow, not_or]
    refine ⟨unraised, fun same => different ?_⟩
    rw [← state.eq_of_task listed member same, sameId]

/-- Only exceptions terminate a process. -/
theorem Apart.of_not_terminates (nothing : ∀ process value, ¬ Terminates kernel process value event) :
    Apart history kernel event :=
  fun process value terminates => (nothing process value terminates).elim

theorem SlotState.step (state : SlotState region live records history kernel)
    (step : ProcessStep read kernel event next) (apart : Apart history kernel event) :
    ∃ live' added, SlotState region live' (records ++ added) (history ++ [event]) next := by
  cases step with
  | loaded run =>
      rcases processLoad_completed state.ring.state run with
        ⟨negative, _⟩ | ⟨_, live', record, rfl, loaded⟩
      · dsimp only at negative
        omega
      · exact ⟨live', [record], state.load loaded⟩
  | notLoaded failed run =>
      rcases processLoad_completed state.ring.state run with ⟨_, live', refused⟩ | ⟨zero, _⟩
      · refine ⟨live', [], ?_⟩
        rw [List.append_nil]
        refine state.quiet ?_ rfl rfl refused.processes
        rw [ringAfter_concat]
        exact ⟨refused.state, state.ring.size,
          fun some => refused.current ▸ state.ring.current some, state.ring.empty⟩
      · dsimp only at zero
        omega
  | clock run =>
      refine ⟨live, [], ?_⟩
      rw [List.append_nil]
      obtain ⟨record, present, current⟩ := state.ring.interrupted (by decide) run
      obtain ⟨_, _, _, _, table⟩ := interrupt_completed state.ring.state present current
        (by decide) run
      refine state.quiet ?_ rfl rfl (table.elim (fun clock => clock.2) fun other => ?_)
      · rw [ringAfter_concat]
        exact (state.ring.interrupt (by decide) run).2.2
      · exact absurd other.1 (by decide)
  | exception _ exception run =>
      refine ⟨live, [], ?_⟩
      rw [List.append_nil]
      exact state.exception exception run apart

/-- The slots over a run in which the exceptions are apart. -/
theorem ProcessRun.slotState {start : Kernel} (none : NoProcesses region live start)
    (run : ProcessRun read Apart start history kernel) :
    ∃ live' records, SlotState region live' records history kernel := by
  induction run with
  | start =>
      refine ⟨live, [], ⟨none.state, rfl, fun some => absurd rfl some, fun _ => rfl⟩, rfl, nofun,
        nofun, fun index process there notNull => ?_⟩
      rw [none.slots] at there
      exact absurd (List.eq_of_mem_replicate (List.mem_of_getElem? there)) notNull
  | step before apart step ih =>
      obtain ⟨live', records, state⟩ := ih
      obtain ⟨live'', added, state'⟩ := state.step step apart
      exact ⟨live'', records ++ added, state'⟩

/-- The slot of another running process is cleared by an exception that is not apart. -/
theorem SlotState.apart_of_stored (state : SlotState region live records history kernel)
    (step : ProcessStep read kernel event next) (stored : Stored (history ++ [event]) next) :
    Apart history kernel event := by
  intro process value terminates _ other value' running different same
  cases step with
  | loaded _ => exact terminates
  | notLoaded _ _ => exact terminates
  | clock _ => exact terminates
  | @exception _ _ _ resumed _ exception run =>
      obtain ⟨record, present, current⟩ := state.ring.interrupted (Nat.le_of_lt exception) run
      have member := List.mem_of_getElem? present
      obtain ⟨rfl, here⟩ := (state.terminates_iff member current).mp terminates
      obtain ⟨value'', there, sameId, _⟩ := state.ring.state.process record member
      rw [here] at there
      cases there
      obtain ⟨_, _, kept, _, table⟩ := interrupt_completed state.ring.state present current
        (Nat.le_of_lt exception) run
      obtain ⟨record', listed, rfl, _, sameTask, _⟩ := (state.running_iff running.here).mp running
      have still : Running (history ++ [.exception kernel.currentTask resumed]) next record'.process
          value' := by
        refine ⟨?_, (kept record' listed).process.trans running.here, ?_⟩
        · rw [List.flatMap_append]
          exact List.mem_append_left _ running.loaded
        · rw [List.flatMap_append, List.flatMap_singleton, List.mem_append, not_or]
          refine ⟨running.unraised, fun now => different ?_⟩
          rw [raisedBy, List.mem_singleton, current, ← sameTask] at now
          rw [state.eq_of_task listed member now]
      have slot := stored _ _ still
      rcases table with ⟨clock, _⟩ | ⟨_, cleared⟩
      · omega
      · rw [cleared, same, sameId, List.getElem?_set_self'] at slot
        obtain ⟨_, _, null⟩ := Option.map_eq_some_iff.mp slot
        exact state.null_not_process listed null.symm

theorem SlotState.clearsOwn_iff (state : SlotState region live records history kernel)
    (step : ProcessStep read kernel event next) :
    ClearsOwn kernel event ↔ Apart history kernel event := by
  constructor
  · intro clears process value terminates _ other value' running different same
    have slot := state.all_stored other value' running
    obtain ⟨record, member, rfl, _⟩ := (state.running_iff running.here).mp running
    rcases clears process value terminates _ (same ▸ slot) with null | own
    · exact state.null_not_process member null
    · exact different own
  · intro apart process value terminates other slot
    cases step with
    | loaded _ => exact terminates.elim
    | notLoaded _ _ => exact terminates.elim
    | clock _ => exact terminates.elim
    | exception _ exception run =>
        obtain ⟨record, present, current⟩ := state.ring.interrupted (Nat.le_of_lt exception) run
        have member := List.mem_of_getElem? present
        obtain ⟨rfl, here⟩ := (state.terminates_iff member current).mp terminates
        obtain ⟨_, there, sameId, _⟩ := state.ring.state.process record member
        rw [here] at there
        cases there
        by_cases null : other = 0
        · exact .inl null
        · obtain ⟨holder, listed, rfl, same, unraised⟩ := state.holds _ _ slot null
          exact .inr (congrArg LoadedProcess.process
            (state.owner member current apart listed unraised (same.trans sameId)))

/-- **The slots of the running processes.** They stay in their slots as long as no task raises an
exception again while another process has the slot of its process; such an exception clears that
slot. -/
theorem stored_iff_apart {start : Kernel} (none : NoProcesses region live start)
    (before : ProcessRun read Apart start history kernel)
    (step : ProcessStep read kernel event next) :
    Stored history kernel ∧ (Stored (history ++ [event]) next ↔ Apart history kernel event) ∧
      (ClearsOwn kernel event ↔ Apart history kernel event) := by
  obtain ⟨live', records, state⟩ := before.slotState none
  refine ⟨state.all_stored, ⟨state.apart_of_stored step, fun apart => ?_⟩,
    state.clearsOwn_iff step⟩
  obtain ⟨_, _, state'⟩ := state.step step apart
  exact state'.all_stored

end Slots

theorem ProcessRun.mono {read : StreamRead} {start kernel : Kernel} {history : List ProcessEvent}
    {allowed allowed' : List ProcessEvent → Kernel → ProcessEvent → Prop}
    (more : ∀ history kernel event, allowed history kernel event → allowed' history kernel event)
    (run : ProcessRun read allowed start history kernel) :
    ProcessRun read allowed' start history kernel := by
  induction run with
  | start => exact .start
  | step _ may step ih => exact ih.step (more _ _ _ may) step

/-- After the first process raised an exception, a second process is loaded into its slot. -/
theorem bootReused : ∃ live start live' history first second kernel,
    NoProcesses kernelHeapRegion live start ∧
    ProcessRun diskstreamerRead Apart start history kernel ∧
    LoadedState kernelHeapRegion live' [first, second] kernel ∧
    history.flatMap loadedBy = [first.process, second.process] ∧
    history.flatMap raisedBy = [taskOf first] ∧ first.id = 0 ∧ second.id = 0 ∧
    kernel.currentTask = taskOf first ∧ KernelPaged live' kernel := by
  obtain ⟨live, start, live', first, k₁, none, run₁, state₁, zero, stored₁, current₁, packed₁,
    paged₁⟩ := bootLoaded diskstreamerRead []
  obtain ⟨resumed, k₂, step₂, state₂, following, current₂, cleared, _, packed₂, paged₂⟩ :=
    @exception_step _ _ diskstreamerRead _ _ state₁ 0 first rfl current₁
      (by rw [zero]; decide) paged₁
  obtain rfl : taskOf first = resumed := Option.some.inj following
  have free : k₂.processes[0]? = some 0 := by
    rw [cleared, stored₁, zero, List.set_set, none.slots]
    rfl
  obtain ⟨live'', second, k₃, run₃, loaded, _, paged₃⟩ := processLoad_progress diskstreamerRead []
    state₂ (packed₂ _ packed₁) paged₂ free (by decide)
  have reused : second.id = 0 := by
    by_contra positive
    exact loaded.least 0 (Nat.pos_of_ne_zero positive) free
  have current₃ : k₃.currentTask = taskOf first := by
    rw [loaded.current, if_neg, current₂]
    rw [state₂.tasks.list.head]
    exact fun null => state₂.tasks.list.notNull (null ▸ List.mem_cons_self)
  have apart : Apart ([] ++ [.loaded first.process]) k₁
      (.exception (taskOf first) (taskOf first)) := fun _ _ _ again => absurd again List.not_mem_nil
  have run : ProcessRun diskstreamerRead Apart start ([] ++ [.loaded first.process] ++
      [.exception (taskOf first) (taskOf first)] ++ [.loaded second.process]) k₃ :=
    ((ProcessRun.start.step (.of_not_terminates fun _ _ => id) (.loaded run₁)).step apart
      step₂).step (.of_not_terminates fun _ _ => id) (.loaded run₃)
  exact ⟨live, start, live'', _, first, second, k₃, none, run, loaded.state, rfl, rfl, zero, reused,
    current₃, paged₃⟩

/-- The second exception of the first process clears the slot of the second one. -/
theorem stored_fails_boot : ¬ ∀ live start history kernel,
    NoProcesses kernelHeapRegion live start →
    ProcessRun diskstreamerRead (fun _ _ _ => True) start history kernel →
    Stored history kernel := by
  intro always
  obtain ⟨live, start, live', history, first, second, kernel, none, before, state, loads, raises,
    zero, reused, current, paged⟩ := bootReused
  obtain ⟨resumed, next, step, state', _, _, cleared, _⟩ := @exception_step _ _
    diskstreamerRead _ _ state 0 first rfl current (by rw [zero]; decide) paged
  have run := (before.mono fun _ _ _ _ => trivial).step trivial step
  obtain ⟨value, here, sameId, sameTask⟩ := state'.process second
    (List.mem_cons_of_mem _ List.mem_cons_self)
  have different : taskOf second ≠ taskOf first := by
    intro same
    have apart : taskOf first ∉ [taskOf second] :=
      (List.nodup_cons.mp state'.tasks.list.nodup).1
    exact apart (same ▸ List.mem_cons_self)
  have running : Running (history ++ [.exception (taskOf first) resumed]) next second.process
      value := by
    refine ⟨?_, here, ?_⟩
    · rw [List.flatMap_append, loads]
      exact List.mem_append_left _ (List.mem_cons_of_mem _ List.mem_cons_self)
    · rw [List.flatMap_append, raises, sameTask, ← taskOf]
      simpa only [raisedBy, List.flatMap_singleton, List.mem_append, List.mem_singleton, or_self]
        using different
  have slot := always live start _ next none run _ _ running
  rw [cleared, sameId, zero, reused, List.getElem?_set_self'] at slot
  obtain ⟨_, _, null⟩ := Option.map_eq_some_iff.mp slot
  have null' : 0 = second.process := null
  rw [← null', state'.tasks.invariant.null] at here
  cases here

theorem stored_iff_apart_boot : ∃ live start history kernel event next,
    NoProcesses kernelHeapRegion live start ∧
    ProcessRun diskstreamerRead Apart start history kernel ∧
    ProcessStep diskstreamerRead kernel event next ∧ Stored history kernel ∧
    (Stored (history ++ [event]) next ↔ Apart history kernel event) ∧
    (ClearsOwn kernel event ↔ Apart history kernel event) := by
  obtain ⟨live, start, live', history, first, second, kernel, none, before, state, _, _, zero, _,
    current, paged⟩ := bootReused
  obtain ⟨resumed, next, step, _⟩ := @exception_step _ _ diskstreamerRead _ _ state 0 first rfl
    current (by rw [zero]; decide) paged
  exact ⟨live, start, history, kernel, _, next, none, before, step,
    stored_iff_apart none before step⟩

end Peachos
