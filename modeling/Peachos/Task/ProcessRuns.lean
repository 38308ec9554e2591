import Peachos.Task.InterruptSpec
import Peachos.Task.ProcessMemory

/-! # Runs of processes

Processes are loaded, the clock interrupts them and they raise exceptions. `LoadedState` holds in
every state of such a run: each loaded process has its task in the list, in the order of the
loads, whether it was terminated or not (`processLoad_completed`, `interrupt_completed`).
-/

namespace Peachos

open CInt

/-- A process that was loaded, with its `id` and the objects of its task. -/
structure LoadedProcess where
  process : Nat
  id : Nat
  memory : TaskMemory

/-- The loaded processes and their tasks. -/
structure LoadedState (region : KernelRegion) (live : List Allocation)
    (records : List LoadedProcess) (kernel : Kernel) : Prop where
  tasks : TaskState region live (records.map LoadedProcess.memory) kernel
  process : ∀ record ∈ records, ∃ value, kernel.objs record.process = some (.process value) ∧
    value.id = record.id ∧ value.task = record.memory.task
  task : ∀ record ∈ records, ∃ value,
    kernel.objs record.memory.task = some (.task value) ∧ value.process = record.process
  held : ∀ record ∈ records, ∃ allocation ∈ live, allocation.ptr = record.process
  distinct : (records.map LoadedProcess.process).Nodup
  slots : kernel.processes.length = peachosMaxProcesses

section State

variable {region : KernelRegion} {live live' : List Allocation} {records : List LoadedProcess}
  {kernel next : Kernel}

/-- The objects of a loaded process are still those of the process. -/
structure LoadedProcess.Kept (record : LoadedProcess) (kernel next : Kernel) : Prop where
  process : next.objs record.process = kernel.objs record.process
  task : ∀ value, kernel.objs record.memory.task = some (.task value) →
    ∃ value', next.objs record.memory.task = some (.task value') ∧ value'.process = value.process

theorem LoadedProcess.Kept.trans {record : LoadedProcess} {middle : Kernel}
    (first : record.Kept kernel middle) (second : record.Kept middle next) :
    record.Kept kernel next where
  process := second.process.trans first.process
  task := by
    intro value here
    obtain ⟨value', there, same⟩ := first.task value here
    obtain ⟨value'', last, same'⟩ := second.task value' there
    exact ⟨value'', last, same'.trans same⟩

theorem LoadedProcess.Kept.of_objs {record : LoadedProcess}
    (process : next.objs record.process = kernel.objs record.process)
    (task : next.objs record.memory.task = kernel.objs record.memory.task) :
    record.Kept kernel next :=
  ⟨process, fun value here => ⟨value, task.trans here, rfl⟩⟩

theorem LoadedState.of_kept (state : LoadedState region live records kernel)
    (tasks : TaskState region live' (records.map LoadedProcess.memory) next) (grown : live ⊆ live')
    (kept : ∀ record ∈ records, record.Kept kernel next)
    (slots : next.processes.length = kernel.processes.length) :
    LoadedState region live' records next where
  tasks := tasks
  process := by
    intro record member
    rw [(kept record member).process]
    exact state.process record member
  task := by
    intro record member
    obtain ⟨value, here, same⟩ := state.task record member
    obtain ⟨value', there, same'⟩ := (kept record member).task value here
    exact ⟨value', there, same'.trans same⟩
  held := by
    intro record member
    obtain ⟨allocation, present, same⟩ := state.held record member
    exact ⟨allocation, grown present, same⟩
  distinct := state.distinct
  slots := slots.trans state.slots

/-- A kernel in which no process was loaded yet. -/
structure NoProcesses (region : KernelRegion) (live : List Allocation) (kernel : Kernel) : Prop
    where
  invariant : KernelInvariant region live kernel
  tasks : TaskList [] kernel
  slots : kernel.processes = List.replicate peachosMaxProcesses 0

theorem NoProcesses.state (none : NoProcesses region live kernel) :
    LoadedState region live [] kernel := by
  refine ⟨⟨none.invariant, .nil, nofun, none.tasks⟩, nofun, nofun, nofun, .nil, ?_⟩
  rw [none.slots, List.length_replicate]

/-- One more loaded process. -/
theorem LoadedState.concat (state : LoadedState region live records kernel)
    {record : LoadedProcess}
    (tasks : TaskState region live' ((records ++ [record]).map LoadedProcess.memory) next)
    (grown : live ⊆ live') (kept : ∀ old ∈ records, old.Kept kernel next)
    (process : ∃ value, next.objs record.process = some (.process value) ∧
      value.id = record.id ∧ value.task = record.memory.task)
    (task : ∃ value, next.objs record.memory.task = some (.task value) ∧
      value.process = record.process)
    (held : ∃ allocation ∈ live', allocation.ptr = record.process)
    (fresh : ∀ allocation ∈ live, allocation.ptr ≠ record.process)
    (slots : next.processes.length = kernel.processes.length) :
    LoadedState region live' (records ++ [record]) next := by
  have cases : ∀ other ∈ records ++ [record], other ∈ records ∨ other = record :=
    fun other member => (List.mem_append.mp member).imp_right List.mem_singleton.mp
  refine ⟨tasks, fun other member => ?_, fun other member => ?_, fun other member => ?_, ?_,
    slots.trans state.slots⟩
  · rcases cases other member with old | rfl
    · rw [(kept other old).process]
      exact state.process other old
    · exact process
  · rcases cases other member with old | rfl
    · obtain ⟨value, here, same⟩ := state.task other old
      obtain ⟨value', there, same'⟩ := (kept other old).task value here
      exact ⟨value', there, same'.trans same⟩
    · exact task
  · rcases cases other member with old | rfl
    · obtain ⟨allocation, present, same⟩ := state.held other old
      exact ⟨allocation, grown present, same⟩
    · exact held
  · rw [List.map_append, List.nodup_append]
    refine ⟨state.distinct, List.nodup_singleton _, fun first old second new same => ?_⟩
    obtain ⟨other, member, rfl⟩ := List.mem_map.mp old
    obtain ⟨allocation, present, here⟩ := state.held other member
    rw [List.map_singleton, List.mem_singleton] at new
    exact fresh allocation present (here.trans (same.trans new))

/-- The loaded processes stay in an extension. -/
theorem LoadedState.kept_extended (state : LoadedState region live records kernel)
    {new : Nat → Prop} (extended : Extended region live live' kernel next new)
    {record : LoadedProcess} (member : record ∈ records) : record.Kept kernel next := by
  refine .of_objs ?_ ?_
  · obtain ⟨allocation, present, here⟩ := state.held record member
    rw [← here]
    exact extended.kept allocation present
  · exact state.tasks.owned.kept extended (List.mem_map_of_mem member) (.inl rfl)

theorem LoadedState.extended (state : LoadedState region live records kernel)
    {new : Nat → Prop} (extended : Extended region live live' kernel next new) :
    LoadedState region live' records next := by
  have globals := extended.globals
  exact state.of_kept (state.tasks.extended extended) extended.grown
    (fun record member => state.kept_extended extended member) (by rw [globals])

end State

section Load

variable {region : KernelRegion} {live live' : List Allocation} {records : List LoadedProcess}
  {kernel next : Kernel}

/-- The free slot is the first one that holds no process. -/
theorem processGetFreeSlotLoop_completed :
    ∀ (count i : Nat) {slot : Int},
      (processGetFreeSlotLoop count i).run kernel = .ok (slot, next) → next = kernel ∧
        (slot = -eistkn ∨ ∃ index : Nat, slot = index ∧ kernel.processes[index]? = some 0 ∧
          ∀ before, i ≤ before → before < index → kernel.processes[before]? ≠ some 0) := by
  intro count
  induction count with
  | zero =>
      intro i slot run
      cases run
      exact ⟨rfl, .inl rfl⟩
  | succ count ih =>
      intro i slot run
      obtain ⟨process, _, read, run₁⟩ := Exec.bind_eq_ok.mp run
      obtain ⟨present, rfl⟩ := Exec.demand_eq_ok.mp read
      split at run₁
      next empty =>
          cases run₁
          exact ⟨rfl, .inr ⟨i, rfl, empty ▸ present, fun before after below => by omega⟩⟩
      next taken =>
          obtain ⟨same, found⟩ := ih (i + 1) run₁
          refine ⟨same, found.imp_right ?_⟩
          rintro ⟨index, equal, free, least⟩
          refine ⟨index, equal, free, fun before after below => ?_⟩
          rcases Nat.eq_or_lt_of_le after with rfl | later
          · rw [present]
            exact fun null => taken (Option.some.inj null)
          · exact least before later below

/-- `process_load_data` loads nothing: `process_load_elf` reports success. -/
theorem processLoadData_run (read : StreamRead) (filename : List UInt8) (process : Nat)
    (kernel : Kernel) :
    (processLoadData read filename process).run kernel = .ok (0, kernel) := by
  have elf : (processLoadElf filename process).run kernel = .ok (0, kernel) := rfl
  rw [processLoadData, Exec.bind_of_ok elf, if_neg (by decide), Exec.run_pure]

theorem writeProcesses_completed {index process : Nat} {done : Unit}
    (run : (writeProcesses index process).run kernel = .ok (done, next)) :
    index < kernel.processes.length ∧
      next = { kernel with processes := kernel.processes.set index process } := by
  unfold writeProcesses at run
  rw [Exec.run_of] at run
  split at run
  next inside =>
      cases run
      exact ⟨inside, rfl⟩
  · cases run

/-- The task of a process was made and its stack mapped, and the process is stored in its slot. -/
structure TaskLoaded (region : KernelRegion) (live live' : List Allocation)
    (memories : List TaskMemory) (kernel next : Kernel) (memory : TaskMemory)
    (process processSlot : Nat) : Prop where
  state : TaskState region live' (memories ++ [memory]) next
  grown : live ⊆ live'
  keptTask : ∀ other ∈ memories, ∀ value, kernel.objs other.task = some (.task value) →
    ∃ value', next.objs other.task = some (.task value') ∧ value'.process = value.process
  kept : ∀ other ∈ live, other.ptr ≠ process →
    (∀ value, kernel.objs other.ptr ≠ some (.task value)) →
    next.objs other.ptr = kernel.objs other.ptr
  chunk : next.kernelChunk = kernel.kernelChunk
  processHere : ∃ value, next.objs process = some (.process value) ∧
    value.id = processSlot ∧ value.task = memory.task
  taskHere : ∃ value, next.objs memory.task = some (.task value) ∧ value.process = process
  inside : processSlot < kernel.processes.length
  processes : next.processes = kernel.processes.set processSlot process
  current : next.currentTask = if kernel.taskHead = 0 then memory.task else kernel.currentTask

theorem processLoadTask_loaded {memories : List TaskMemory}
    (state : TaskState region live memories kernel) {process processSlot stack : Nat}
    {filename : List UInt8} (allocated : ∃ allocation ∈ live, allocation.ptr = process)
    (here : kernel.objs process = some (.process
      { ({} : Process) with filename := filename, id := processSlot, stack := stack }))
    (fits : BlockFits peachosProgramVirtualStackAddressEnd stack peachosUserProgramStackSize)
    {result : Int × Nat}
    (run : (processLoadTask process processSlot).run kernel = .ok (result, next)) :
    result = (0, process) ∧ ∃ live' memory,
      TaskLoaded region live live' memories kernel next memory process processSlot := by
  obtain ⟨task, made, new, run₁⟩ := Exec.bind_eq_ok.mp run
  obtain ⟨live', memory, rfl, taskMade⟩ := taskNew_spec state new
  obtain ⟨allocation, member, rfl⟩ := allocated
  have processKept := taskMade.kept allocation member fun task => by
    rw [here]
    nofun
  rw [here] at processKept
  obtain ⟨_, _, found, typed, run₂⟩ := load_bind_eq_ok.mp run₁
  rw [processKept] at found
  cases found
  cases typed
  obtain ⟨_, run₃⟩ := store_bind_eq_ok.mp run₂
  obtain ⟨after, before, holds⟩ := taskMade.made
  have notNull : memory.task ≠ 0 := by
    intro null
    have present := holds.task
    rw [null, taskMade.state.invariant.null] at present
    cases present
  rw [if_neg notNull] at run₃
  have written := taskMade.state.setProcess processKept { ({} : Process) with
    filename := filename, id := processSlot, stack := stack, task := memory.task }
  have noProgram : BlockFits peachosProgramVirtualAddress 0 0 := ⟨rfl, by decide, by decide⟩
  have processHolds : ProcessHolds ⟨allocation.ptr, none, stack, memory⟩
      (identityPages taskPageFlags) (made.setObj allocation.ptr (some (.process
        { ({} : Process) with
          filename := filename, id := processSlot, stack := stack, task := memory.task }))) :=
    ⟨⟨_, Kernel.setObj_objs_self .., rfl, rfl, rfl, rfl, rfl⟩,
      ⟨_, holds.setProcess processKept _⟩, noProgram, fits⟩
  obtain ⟨mapped, map, ⟨_, ⟨taskValue, taskHere⟩, _⟩, only⟩ := processMapMemory_spec processHolds
  obtain ⟨res, _, map', run₄⟩ := Exec.bind_eq_ok.mp run₃
  rw [map] at map'
  obtain ⟨rfl, rfl⟩ := Prod.mk.inj (Except.ok.inj map')
  rw [if_neg (by decide)] at run₄
  obtain ⟨_, _, write, run₅⟩ := Exec.bind_eq_ok.mp run₄
  cases run₅
  obtain ⟨inside, rfl⟩ := writeProcesses_completed write
  have tables := (holds.setProcess processKept { ({} : Process) with
    filename := filename, id := processSlot, stack := stack, task := memory.task }).map
  have keptProcess : ∀ ptr value, (made.setObj allocation.ptr (some (.process
      { ({} : Process) with
        filename := filename, id := processSlot, stack := stack, task := memory.task }))).objs
          ptr = some (.process value) → mapped.objs ptr = some (.process value) := by
    intro ptr value there
    rw [only.kept ptr fun own => ?_, there]
    rcases tables.contents own with ⟨_, contents⟩ | ⟨_, contents⟩ <;> rw [there] at contents <;>
      cases contents
  have keptTask : ∀ ptr value, made.objs ptr = some (.task value) →
      mapped.objs ptr = some (.task value) := by
    intro ptr value there
    have apart : ptr ≠ allocation.ptr := Kernel.ne_of_objs there processKept nofun
    have still : (made.setObj allocation.ptr (some (.process
        { ({} : Process) with
          filename := filename, id := processSlot, stack := stack, task := memory.task }))).objs
            ptr = some (.task value) := (Kernel.setObj_objs_of_ne _ _ apart).trans there
    rw [only.kept ptr fun own => tables.not_task own value still, still]
  have globals := only.globals
  have mappedTasks := written.writeTables (List.mem_append_right _ (List.mem_singleton_self _))
    taskHere only
  have keptOther : ∀ other ∈ live, other.ptr ≠ allocation.ptr →
      (∀ value, kernel.objs other.ptr ≠ some (.task value)) →
      mapped.objs other.ptr = kernel.objs other.ptr := by
    intro other present apart noTask
    have still : (made.setObj allocation.ptr (some (.process
        { ({} : Process) with
          filename := filename, id := processSlot, stack := stack, task := memory.task }))).objs
            other.ptr = kernel.objs other.ptr :=
      (Kernel.setObj_objs_of_ne _ _ apart).trans (taskMade.kept other present noTask)
    rw [only.kept other.ptr fun own => taskMade.fresh other present (.inr own), still]
  refine ⟨rfl, live', memory, mappedTasks.switch rfl rfl rfl rfl
    (mappedTasks.list.current ?_), taskMade.grown, ?_, keptOther, ?_,
    ⟨_, keptProcess _ _ (Kernel.setObj_objs_self ..), rfl, rfl⟩, ⟨_, keptTask _ _ holds.task, rfl⟩,
    ?_, ?_, ?_⟩
  · rw [List.map_append]
    exact List.append_ne_nil_of_right_ne_nil _ (List.cons_ne_nil _ _)
  · intro other listed value there
    obtain ⟨found, pages, before⟩ := state.holds other listed
    have same := before.task
    rw [there] at same
    cases same
    obtain ⟨_, _, after⟩ := taskMade.task other listed _ _ before
    exact ⟨_, keptTask _ _ after.task, rfl⟩
  · change mapped.kernelChunk = _
    rw [globals]
    change made.kernelChunk = _
    rw [taskMade.globals]
  · rw [globals] at inside
    change processSlot < made.processes.length at inside
    rw [taskMade.globals] at inside
    exact inside
  · change mapped.processes.set _ _ = _
    rw [globals]
    change made.processes.set _ _ = _
    rw [taskMade.globals]
  · change mapped.currentTask = _
    rw [globals]
    exact taskMade.current

/-- The loaded processes stay. -/
theorem TaskLoaded.keptProcess (state : LoadedState region live records kernel)
    {memory : TaskMemory} {process processSlot : Nat} (loaded : TaskLoaded region live live'
      (records.map LoadedProcess.memory) kernel next memory process processSlot)
    (others : ∀ record ∈ records, record.process ≠ process) {old : LoadedProcess}
    (listed : old ∈ records) : old.Kept kernel next := by
  refine ⟨?_, fun value => loaded.keptTask _ (List.mem_map_of_mem listed) value⟩
  obtain ⟨value, there, _⟩ := state.process old listed
  obtain ⟨other, present, same⟩ := state.held old listed
  rw [← same]
  refine loaded.kept other present (same ▸ others old listed) fun task => ?_
  rw [same, there]
  nofun

/-- A process that was not loaded: the request for its stack was refused. -/
structure LoadFailed (region : KernelRegion) (live : List Allocation)
    (records : List LoadedProcess) (kernel next : Kernel) : Prop where
  state : LoadedState region live records next
  kept : ∀ old ∈ records, old.Kept kernel next
  processes : next.processes = kernel.processes
  current : next.currentTask = kernel.currentTask

/-- A loaded process: it is stored in the first free slot, and its task comes last. -/
structure ProcessLoaded (region : KernelRegion) (live live' : List Allocation)
    (records : List LoadedProcess) (kernel next : Kernel) (record : LoadedProcess) : Prop where
  state : LoadedState region live' (records ++ [record]) next
  grown : live ⊆ live'
  kept : ∀ allocation ∈ live, (∀ value, kernel.objs allocation.ptr ≠ some (.task value)) →
    next.objs allocation.ptr = kernel.objs allocation.ptr
  keptProcesses : ∀ old ∈ records, old.Kept kernel next
  chunk : next.kernelChunk = kernel.kernelChunk
  free : kernel.processes[record.id]? = some 0
  least : ∀ before < record.id, kernel.processes[before]? ≠ some 0
  stored : next.processes = kernel.processes.set record.id record.process
  current : next.currentTask =
    if kernel.taskHead = 0 then record.memory.task else kernel.currentTask

/-- The outcome of `process_load`. -/
def LoadOutcome (region : KernelRegion) (live : List Allocation) (records : List LoadedProcess)
    (kernel next : Kernel) (result : Int × Nat) : Prop :=
  (result.1 < 0 ∧ ∃ live', LoadFailed region live' records kernel next) ∨
    (result.1 = 0 ∧ ∃ live' record, record.process = result.2 ∧
      ProcessLoaded region live live' records kernel next record)

theorem LoadOutcome.refused {res : Int} {process : Nat} (negative : res < 0)
    (state : LoadedState region live records kernel) :
    LoadOutcome region live records kernel kernel (res, process) :=
  .inl ⟨negative, live, state, fun _ _ => .of_objs rfl rfl, rfl, rfl⟩

/-- The kernel in which the process has its stack, its `filename` and its `id`. -/
def stackedProcess (filename : List UInt8) (process processSlot stack : Nat) (kernel : Kernel) :
    Kernel :=
  (kernel.setObj process (some (.process { ({} : Process) with stack := stack }))).setObj process
    (some (.process { ({} : Process) with
      stack := stack, id := processSlot,
      filename := strncpy ({} : Process).filename filename peachosMaxPath }))

/-- Up to the creation of the task: the request for the stack is refused, or it is granted and the
task is created. -/
theorem processFill_stack {read : StreamRead} {filename : List UInt8}
    (inv : KernelInvariant region live kernel) {process processSlot : Nat} {allocated : Kernel}
    (placed : Placed region live (⟨process, sizeofProcess⟩ :: live) kernel (.process {}) process
      allocated) {result : Int × Nat}
    (run : (processFill read filename process processSlot).run allocated = .ok (result, next)) :
    ∃ stack stacked, (kmalloc peachosUserProgramStackSize
        (.bytes (List.replicate peachosUserProgramStackSize 0))).run
          (allocated.setObj process (some (.process {}))) = .ok (stack, stacked) ∧
      (stack = 0 ∧ result = (-enomem, 0) ∧
          next = stacked.setObj process (some (.process {})) ∧
          stacked = allocated.setObj process (some (.process {})) ∨
        Placed region (⟨process, sizeofProcess⟩ :: live) (⟨stack, peachosUserProgramStackSize⟩ ::
            ⟨process, sizeofProcess⟩ :: live) (allocated.setObj process (some (.process {})))
          (.bytes (List.replicate peachosUserProgramStackSize 0)) stack stacked ∧
          (processLoadTask process processSlot).run
            (stackedProcess filename process processSlot stack stacked) = .ok (result, next)) := by
  obtain ⟨_, run₁⟩ := store_bind_eq_ok.mp run
  obtain ⟨res, _, data, run₂⟩ := Exec.bind_eq_ok.mp run₁
  rw [processLoadData_run] at data
  obtain ⟨rfl, rfl⟩ := Prod.mk.inj (Except.ok.inj data)
  rw [if_neg (by decide)] at run₂
  obtain ⟨stack, stacked, alloc, run₃⟩ := Exec.bind_eq_ok.mp run₂
  obtain ⟨_, _, found, typed, run₄⟩ := load_bind_eq_ok.mp run₃
  obtain ⟨_, run₅⟩ := store_bind_eq_ok.mp run₄
  refine ⟨stack, stacked, alloc, ?_⟩
  have extended := ((Extended.refl inv).placed placed).setObj (.inl rfl) (.process {})
  rcases kmalloc_positive extended.invariant (by decide) (by decide) alloc with
    ⟨rfl, rfl⟩ | placedStack
  · rw [if_pos rfl] at run₅
    cases run₅
    rw [Kernel.setObj_objs_self] at found
    cases found
    cases typed
    exact .inl ⟨rfl, rfl, rfl, rfl⟩
  · rw [if_neg placedStack.notNull] at run₅
    have still : stacked.objs process = some (.process {}) :=
      (placedStack.kept _ List.mem_cons_self).trans (Kernel.setObj_objs_self ..)
    rw [still] at found
    cases found
    cases typed
    obtain ⟨_, _, found, typed, run₆⟩ := load_bind_eq_ok.mp run₅
    rw [Kernel.setObj_objs_self] at found
    cases found
    cases typed
    obtain ⟨_, run₇⟩ := store_bind_eq_ok.mp run₆
    exact .inr ⟨placedStack, run₇⟩

/-- A process with a stack, before its task is created. -/
structure StackedProcess (region : KernelRegion) (live : List Allocation) (kernel next : Kernel)
    (filename : List UInt8) (process processSlot stack : Nat) : Prop where
  extended : Extended region live (⟨stack, peachosUserProgramStackSize⟩ ::
    ⟨process, sizeofProcess⟩ :: live) kernel next fun ptr => ptr = stack ∨ ptr = process ∨ False
  processHere : next.objs process = some (.process { ({} : Process) with
    stack := stack, id := processSlot,
    filename := strncpy ({} : Process).filename filename peachosMaxPath })
  fits : BlockFits peachosProgramVirtualStackAddressEnd stack peachosUserProgramStackSize

theorem stackedProcess_of_placed {filename : List UInt8}
    (inv : KernelInvariant region live kernel) {process processSlot stack : Nat}
    {allocated stacked : Kernel}
    (placed : Placed region live (⟨process, sizeofProcess⟩ :: live) kernel (.process {}) process
      allocated)
    (placedStack : Placed region (⟨process, sizeofProcess⟩ :: live)
      (⟨stack, peachosUserProgramStackSize⟩ :: ⟨process, sizeofProcess⟩ :: live)
      (allocated.setObj process (some (.process {})))
      (.bytes (List.replicate peachosUserProgramStackSize 0)) stack stacked) :
    StackedProcess region live kernel (stackedProcess filename process processSlot stack stacked)
      filename process processSlot stack where
  extended := (((((Extended.refl inv).placed placed).setObj (.inl rfl) (.process {})).placed
    placedStack).setObj (.inr (.inl rfl)) _).setObj (.inr (.inl rfl)) _
  processHere := Kernel.setObj_objs_self ..
  fits := blockFits_of_placed placedStack.invariant (by rw [placedStack.present]; rfl)
    (.inr List.mem_cons_self) (by decide)

theorem processFill_completed {read : StreamRead} {filename : List UInt8}
    (state : LoadedState region live records kernel) {process processSlot : Nat}
    (free : kernel.processes[processSlot]? = some 0)
    (least : ∀ before < processSlot, kernel.processes[before]? ≠ some 0) {allocated : Kernel}
    (placed : Placed region live (⟨process, sizeofProcess⟩ :: live) kernel (.process {}) process
      allocated) {result : Int × Nat}
    (run : (processFill read filename process processSlot).run allocated = .ok (result, next)) :
    LoadOutcome region live records kernel next result := by
  have globals := placed.globals
  obtain ⟨stack, stacked, _, ⟨_, rfl, rfl, rfl⟩ | ⟨placedStack, task⟩⟩ :=
    processFill_stack state.tasks.invariant placed run
  · have extended := (((Extended.refl state.tasks.invariant).placed placed).setObj (.inl rfl)
      (.process {})).setObj (.inl rfl) (.process {})
    refine .inl ⟨by decide, _, state.extended extended,
      fun old member => state.kept_extended extended member, ?_, ?_⟩
    · change allocated.processes = _
      rw [globals]
    · change allocated.currentTask = _
      rw [globals]
  · have ready := @stackedProcess_of_placed _ _ _ filename state.tasks.invariant _ processSlot _ _ _
      placed placedStack
    have extended := ready.extended
    have fresh : ∀ allocation ∈ live, allocation.ptr ≠ process := placed.fresh
    have others : ∀ record ∈ records, record.process ≠ process := by
      intro record member same
      obtain ⟨allocation, old, here⟩ := state.held record member
      exact fresh allocation old (here.trans same)
    have middle := state.extended extended
    obtain ⟨rfl, live', memory, loaded⟩ := processLoadTask_loaded middle.tasks
      ⟨_, List.mem_cons_of_mem _ List.mem_cons_self, rfl⟩ ready.processHere ready.fits task
    have same := extended.globals
    have grown := loaded.grown
    have keptAll : ∀ old ∈ records, old.Kept kernel next := fun old member =>
      (state.kept_extended extended member).trans (loaded.keptProcess middle others member)
    refine .inr ⟨rfl, live', ⟨process, processSlot, memory⟩, rfl, ?_,
      List.Subset.trans extended.grown grown, ?_, keptAll, ?_, free, least, ?_, ?_⟩
    · refine state.concat (by rw [List.map_append, List.map_singleton]; exact loaded.state)
        (List.Subset.trans extended.grown grown) keptAll loaded.processHere loaded.taskHere
        ⟨_, grown (List.mem_cons_of_mem _ List.mem_cons_self), rfl⟩ fresh ?_
      rw [loaded.processes, List.length_set, same]
    · intro allocation old noTask
      have before := extended.kept allocation old
      rw [loaded.kept allocation (extended.grown old) (fresh allocation old)
        (by rw [before]; exact noTask), before]
    · rw [loaded.chunk, same]
    · rw [loaded.processes, same]
    · rw [loaded.current, same]

/-- **`process_load`.** -/
theorem processLoad_completed {read : StreamRead} {filename : List UInt8}
    (state : LoadedState region live records kernel) {result : Int × Nat}
    (run : (processLoad read filename).run kernel = .ok (result, next)) :
    LoadOutcome region live records kernel next result := by
  obtain ⟨slot, _, search, run₁⟩ := Exec.bind_eq_ok.mp run
  obtain ⟨rfl, found⟩ := processGetFreeSlotLoop_completed _ _ search
  rcases found with rfl | ⟨index, rfl, free, least⟩
  · rw [if_pos (by decide)] at run₁
    cases run₁
    exact .refused (by decide) state
  rw [if_neg (by omega), Int.toNat_natCast] at run₁
  obtain ⟨taken, _, get, run₂⟩ := Exec.bind_eq_ok.mp run₁
  have inside : index < peachosMaxProcesses := by
    rw [← state.slots]
    exact (List.getElem?_eq_some_iff.mp free).1
  rw [processGet, if_neg (by unfold peachosMaxProcesses at *; omega)] at get
  obtain ⟨here, rfl⟩ := Exec.demand_eq_ok.mp get
  rw [Int.toNat_natCast, free] at here
  obtain rfl := Option.some.inj here
  rw [if_neg (not_not.mpr rfl)] at run₂
  obtain ⟨process, allocated, alloc, run₃⟩ := Exec.bind_eq_ok.mp run₂
  rcases kmalloc_positive state.tasks.invariant (by decide) (by decide) alloc with
    ⟨rfl, rfl⟩ | placed
  · rw [if_pos rfl] at run₃
    cases run₃
    exact .refused (by decide) state
  · rw [if_neg placed.notNull] at run₃
    obtain ⟨filled, last, fill, run₄⟩ := Exec.bind_eq_ok.mp run₃
    have outcome := processFill_completed state free
      (fun before below => least before (Nat.zero_le _) below) placed fill
    dsimp only at run₄
    split at run₄
    next failed =>
        cases run₄
        rcases outcome with ⟨negative, rest⟩ | ⟨zero, rest⟩
        · exact .inl ⟨negative, rest⟩
        · rw [isErrCode, zero] at failed
          cases failed
    next =>
        cases run₄
        exact outcome

end Load

section Interrupt

variable {region : KernelRegion} {live : List Allocation} {records : List LoadedProcess}
  {kernel next : Kernel}

/-- The tasks of the loaded processes. -/
def taskOf (record : LoadedProcess) : Nat := record.memory.task

theorem LoadedState.map_tasks (records : List LoadedProcess) :
    (records.map LoadedProcess.memory).map TaskMemory.task = records.map taskOf :=
  List.map_map

/-- **An interrupt.** The task after the current one continues, and an exception clears the slot
of the current process. -/
theorem interrupt_completed (state : LoadedState region live records kernel)
    {position interrupt : Nat} {record : LoadedProcess} (here : records[position]? = some record)
    (current : kernel.currentTask = taskOf record) (callback : interrupt ≤ 0x20)
    {frame : InterruptFrame} {result : Option Nat}
    (run : (interruptHandler interrupt frame).run kernel = .ok (result, next)) :
    result = some next.currentTask ∧ LoadedState region live records next ∧
      (∀ old ∈ records, old.Kept kernel next) ∧
      (records.map taskOf)[if position + 1 < records.length then position + 1 else 0]? =
        some next.currentTask ∧
      (interrupt = 0x20 ∧ next.processes = kernel.processes ∨
        interrupt < 0x20 ∧ next.processes = kernel.processes.set record.id 0) := by
  obtain ⟨value, processes, currentProcess, directory, task, found, rfl, rfl, table, rfl⟩ :=
    interruptHandler_completed callback run
  have list := state.tasks.list
  rw [LoadedState.map_tasks] at list
  have member : record ∈ records := List.mem_of_getElem? here
  have hereTask : (records.map taskOf)[position]? = some kernel.currentTask := by
    rw [List.getElem?_map, here, current]
    rfl
  have following := list.getNext hereTask found
  rw [List.length_map] at following
  obtain ⟨taskValue, taskHere, processOf⟩ := state.task record member
  obtain ⟨process, processHere, idOf, _⟩ := state.process record member
  rw [← taskOf, ← current, found] at taskHere
  cases taskHere
  have lengths : processes.length = kernel.processes.length := by
    rcases table with ⟨_, rfl⟩ | ⟨_, _, _, rfl⟩
    · rfl
    · exact List.length_set
  have kept : ∀ old ∈ records, old.Kept kernel { kernel.setObj kernel.currentTask
      (some (.task { value with registers := frame.registers })) with
        processes := processes, currentProcess := currentProcess,
        currentTask := if value.next = 0 then kernel.taskHead else value.next,
        currentDirectory := directory } := by
    intro old listed
    obtain ⟨oldProcess, oldHere, _⟩ := state.process old listed
    refine ⟨Kernel.setObj_objs_of_ne _ _ (Kernel.ne_of_objs oldHere found nofun), ?_⟩
    intro oldValue oldTask
    by_cases same : old.memory.task = kernel.currentTask
    · rw [same, found] at oldTask
      cases oldTask
      rw [same]
      exact ⟨_, Kernel.setObj_objs_self .., rfl⟩
    · exact ⟨oldValue, (Kernel.setObj_objs_of_ne _ _ same).trans oldTask, rfl⟩
  have saved := @TaskState.setTask _ _ _ _ state.tasks kernel.currentTask value
    { value with registers := frame.registers } found rfl rfl rfl
  refine ⟨rfl, state.of_kept (saved.switch rfl rfl rfl rfl (LoadedState.map_tasks records ▸
    List.mem_of_getElem? following)) (List.Subset.refl _) kept lengths, kept, following, ?_⟩
  rcases table with clock | ⟨exception, found', there, same⟩
  · exact .inl clock
  · rw [processOf, processHere] at there
    cases there
    exact .inr ⟨exception, by rw [same, idOf]⟩

end Interrupt

end Peachos
