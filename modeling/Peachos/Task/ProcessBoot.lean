import Peachos.Task.ProcessRuns

/-! # Processes of a fresh kernel

While the blocks of the heap lie together, `process_load` completes as long as there is a free
slot and room for its allocations (`processLoad_packed`), and interrupts complete once the kernel
has a page directory (`clock_progress`, `exception_progress`).
-/

namespace Peachos

open CInt

variable {region : KernelRegion} {live : List Allocation} {records : List LoadedProcess}
  {kernel : Kernel} {used : Nat}

/-- The blocks that `process_load` allocates. -/
def processLoadBlocks : Nat := 3 + 4 + taskBlocks

/-- A free slot is found. -/
theorem processGetFreeSlotLoop_found {slot : Nat} (free : kernel.processes[slot]? = some 0) :
    ∀ (count i : Nat), i ≤ slot → slot < i + count → ∃ index : Nat,
      (processGetFreeSlotLoop count i).run kernel = .ok ((index : Int), kernel) := by
  intro count
  induction count with
  | zero =>
      intro i after before
      omega
  | succ count ih =>
      intro i after before
      have inside := (List.getElem?_eq_some_iff.mp free).1
      obtain ⟨process, here⟩ : ∃ process, kernel.processes[i]? = some process :=
        ⟨_, List.getElem?_eq_getElem (after.trans_lt inside)⟩
      have read : (Exec.demand (Fault.bufferIndex (i : Int)) fun kernel : Kernel =>
          kernel.processes[i]?).run kernel = .ok (process, kernel) := Exec.demand_of_some here
      rw [processGetFreeSlotLoop, Exec.bind_of_ok read]
      by_cases empty : process = 0
      · exact ⟨i, by rw [if_pos empty, Exec.run_pure]⟩
      · rw [if_neg empty]
        refine ih (i + 1) (Nat.lt_of_le_of_ne after ?_) (by omega)
        rintro rfl
        rw [free] at here
        exact empty (Option.some.inj here).symm

/-- **Blocks for the task of a process.** -/
theorem processLoadTask_supplied {supplies : List Allocation → Kernel → Nat → Prop}
    (supply : Supply region supplies) {memories : List TaskMemory}
    (state : TaskState region live memories kernel) {left : Nat}
    (supplied : supplies live kernel (left + taskBlocks)) {process : Allocation}
    (allocated : process ∈ live) {processSlot stack : Nat}
    {filename : List UInt8} (here : kernel.objs process.ptr = some (.process
      { ({} : Process) with filename := filename, id := processSlot, stack := stack }))
    (fits : BlockFits peachosProgramVirtualStackAddressEnd stack peachosUserProgramStackSize)
    (inside : processSlot < kernel.processes.length) :
    ∃ next, (processLoadTask process.ptr processSlot).run kernel = .ok ((0, process.ptr), next) ∧
      ∃ live' middle, supplies live' middle left ∧ next.heap = middle.heap := by
  obtain ⟨_, memory, made, new, _, kept, _, live', middle, supplied', heap⟩ :=
    taskNew_supplied supply state supplied allocated here
  obtain ⟨_, other, same, taskMade⟩ := taskNew_spec state new
  obtain ⟨after, before, holds⟩ := taskMade.made
  have notNull : memory.task ≠ 0 := by
    intro null
    have present := holds.task
    rw [same, null, taskMade.state.invariant.null] at present
    cases present
  have loaded : (load Obj.process? process.ptr).run made = .ok (_, made) := load_of_obj kept rfl
  have present : (made.objs process.ptr).isSome := by
    rw [kept]
    rfl
  have noProgram : BlockFits peachosProgramVirtualAddress 0 0 := ⟨rfl, by decide, by decide⟩
  have processHolds : ProcessHolds ⟨process.ptr, none, stack, other⟩ (identityPages taskPageFlags)
      (made.setObj process.ptr (some (.process { ({} : Process) with
        filename := filename, id := processSlot, stack := stack, task := memory.task }))) :=
    ⟨⟨_, Kernel.setObj_objs_self .., rfl, rfl, rfl, rfl, same.symm⟩,
      ⟨_, holds.setProcess kept _⟩, noProgram, fits⟩
  obtain ⟨mapped, map, _, only⟩ := processMapMemory_spec processHolds
  have length : processSlot < mapped.processes.length := by
    have globals := only.globals
    rw [globals]
    change processSlot < made.processes.length
    rw [taskMade.globals]
    exact inside
  have stored : (writeProcesses processSlot process.ptr).run mapped =
      .ok ((), { mapped with processes := mapped.processes.set processSlot process.ptr }) := by
    rw [writeProcesses, Exec.run_of, if_pos length]
  refine ⟨{ mapped with processes := mapped.processes.set processSlot process.ptr }, ?_, live',
    middle, supplied', only.heap.trans heap⟩
  rw [processLoadTask, Exec.bind_of_ok new, Exec.bind_of_ok loaded,
    Exec.bind_of_ok (store_of_live present), if_neg notNull, Exec.bind_of_ok map,
    if_neg (by decide), Exec.bind_of_ok stored, Exec.run_pure]

/-- **Blocks for a process.** -/
theorem processFill_supplied (read : StreamRead) (filename : List UInt8)
    {supplies : List Allocation → Kernel → Nat → Prop} (supply : Supply region supplies)
    {memories : List TaskMemory} (state : TaskState region live memories kernel)
    {process stack processSlot left : Nat} {allocated stacked : Kernel}
    (placed : Placed region live (⟨process, sizeofProcess⟩ :: live) kernel (.process {}) process
      allocated)
    (alloc : (kmalloc peachosUserProgramStackSize
      (.bytes (List.replicate peachosUserProgramStackSize 0))).run
        (allocated.setObj process (some (.process {}))) = .ok (stack, stacked))
    (placedStack : Placed region (⟨process, sizeofProcess⟩ :: live)
      (⟨stack, peachosUserProgramStackSize⟩ :: ⟨process, sizeofProcess⟩ :: live)
      (allocated.setObj process (some (.process {})))
      (.bytes (List.replicate peachosUserProgramStackSize 0)) stack stacked)
    (supplied : supplies (⟨stack, peachosUserProgramStackSize⟩ ::
      ⟨process, sizeofProcess⟩ :: live) stacked (left + taskBlocks))
    (inside : processSlot < kernel.processes.length) :
    ∃ next, (processFill read filename process processSlot).run allocated =
        .ok ((0, process), next) ∧
      ∃ live' middle, supplies live' middle left ∧ next.heap = middle.heap := by
  have present : (allocated.objs process).isSome := by
    rw [placed.present]
    rfl
  have here : stacked.objs process = some (.process {}) :=
    (placedStack.kept _ List.mem_cons_self).trans (Kernel.setObj_objs_self ..)
  have still : (stacked.objs process).isSome := by
    rw [here]
    rfl
  have written : ∀ contents, ((stacked.setObj process (some contents)).objs process).isSome := by
    intro contents
    rw [Kernel.setObj_objs_self]
    rfl
  have loaded : (load Obj.process? process).run stacked = .ok (_, stacked) := load_of_obj here rfl
  have reloaded : ∀ value, (load Obj.process? process).run
      (stacked.setObj process (some (.process value))) = .ok (value, _) :=
    fun value => load_of_obj (Kernel.setObj_objs_self ..) rfl
  have ready := @stackedProcess_of_placed _ _ _ filename state.invariant _ processSlot _ _ _
    placed placedStack
  have globals := ready.extended.globals
  obtain ⟨next, task, rest⟩ := @processLoadTask_supplied _ _ _ _ supply _
    (state.extended ready.extended) left
    (supply.same supplied rfl ready.extended.invariant) ⟨process, sizeofProcess⟩
    (List.mem_cons_of_mem _ List.mem_cons_self) processSlot stack _ ready.processHere ready.fits
    (by rw [globals]; exact inside)
  refine ⟨next, ?_, rest⟩
  rw [processFill, processInit, Exec.bind_of_ok (store_of_live present),
    Exec.bind_of_ok (processLoadData_run ..), if_neg (by decide), kzalloc, Exec.bind_of_ok alloc,
    Exec.bind_of_ok loaded, Exec.bind_of_ok (store_of_live still), if_neg placedStack.notNull,
    Exec.bind_of_ok (reloaded _), Exec.bind_of_ok (store_of_live (written _))]
  exact task

/-- **Room for a process.** -/
theorem processLoad_packed (read : StreamRead) (filename : List UInt8)
    (state : LoadedState region live records kernel) (packed : Packed region live kernel used)
    {slot : Nat} (free : kernel.processes[slot]? = some 0)
    (room : (used + processLoadBlocks) * peachosHeapBlockSize ≤ region.bytes) :
    ∃ process next, (processLoad read filename).run kernel = .ok ((0, process), next) ∧
      ∀ block < next.heap.table.total,
        next.heap.isFree block = true ↔ used + processLoadBlocks ≤ block := by
  have room₁ : (used + 3) * peachosHeapBlockSize ≤ region.bytes :=
    (Nat.mul_le_mul_right _ (by unfold processLoadBlocks; omega)).trans room
  have room₂ : (used + 3 + 4) * peachosHeapBlockSize ≤ region.bytes :=
    (Nat.mul_le_mul_right _ (by unfold processLoadBlocks; omega)).trans room
  have total : used + 3 + 4 + taskBlocks = used + processLoadBlocks := by
    unfold processLoadBlocks
    omega
  have inside := (List.getElem?_eq_some_iff.mp free).1
  rw [state.slots] at inside
  obtain ⟨index, search⟩ := processGetFreeSlotLoop_found free peachosMaxProcesses 0
    (Nat.zero_le _) (by rwa [Nat.zero_add])
  obtain ⟨_, found⟩ := processGetFreeSlotLoop_completed _ _ search
  obtain ⟨indexFree, indexInside⟩ : kernel.processes[index]? = some 0 ∧
      index < kernel.processes.length := by
    rcases found with negative | ⟨index', same, free', _⟩
    · unfold eistkn at negative
      omega
    · rw [Int.natCast_inj.mp same]
      exact ⟨free', (List.getElem?_eq_some_iff.mp free').1⟩
  have bound : ¬ ((index : Int) < 0 ∨ (index : Int) ≥ peachosMaxProcesses) := by
    rw [state.slots] at indexInside
    unfold peachosMaxProcesses at *
    omega
  have get : (processGet index).run kernel = .ok (0, kernel) := by
    rw [processGet, if_neg bound]
    exact Exec.demand_of_some indexFree
  obtain ⟨process, allocated, _, alloc₁, packed₁, placed₁⟩ := kmalloc_packed packed
    (show 1 ≤ sizeofProcess by decide) (by decide) (show blocksFor sizeofProcess = 3 by decide)
    room₁ (.process {})
  have present : (allocated.objs process).isSome := by
    rw [placed₁.present]
    rfl
  obtain ⟨stack, stacked, _, alloc₂, packed₂, placed₂⟩ := kmalloc_packed
    (packed₁.of_writes (@WritesOnly.setObj (fun _ => True) allocated process trivial present
      (.process {})))
    (show 1 ≤ peachosUserProgramStackSize by decide) (by decide)
    (show blocksFor peachosUserProgramStackSize = 4 by decide) room₂
    (.bytes (List.replicate peachosUserProgramStackSize 0))
  obtain ⟨next, fill, _, middle, ⟨_, sum, packed'⟩, heap⟩ := @processFill_supplied _ _ _ read
    filename _ (packedSupply room) _ state.tasks _ _ index 0 _ _ placed₁ alloc₂ placed₂
    ⟨used + 3 + 4, by omega, packed₂⟩ indexInside
  have left : ∀ block < next.heap.table.total,
      next.heap.isFree block = true ↔ used + processLoadBlocks ≤ block := by
    rw [heap, ← sum]
    exact packed'.free
  refine ⟨process, next, ?_, left⟩
  rw [processLoad, processGetFreeSlot, Exec.bind_of_ok search, if_neg (by omega),
    Int.toNat_natCast, processLoadForSlot, Exec.bind_of_ok get, if_neg (not_not.mpr rfl), kzalloc,
    Exec.bind_of_ok alloc₁, if_neg placed₁.notNull, Exec.bind_of_ok fill]
  rfl

/-- The kernel has a page directory, and it is no task. -/
def KernelPaged (live : List Allocation) (kernel : Kernel) : Prop :=
  ∃ allocation ∈ live, allocation.ptr = kernel.kernelChunk ∧
    ∃ chunk, kernel.objs kernel.kernelChunk = some (.chunk chunk)

theorem KernelPaged.loaded {live' : List Allocation} {next : Kernel} {record : LoadedProcess}
    (paged : KernelPaged live kernel)
    (loaded : ProcessLoaded region live live' records kernel next record) :
    KernelPaged live' next := by
  obtain ⟨allocation, member, same, chunk, here⟩ := paged
  have kept := loaded.kept allocation member fun task => by
    rw [same, here]
    nofun
  refine ⟨allocation, loaded.grown member, by rw [loaded.chunk, same], chunk, ?_⟩
  rw [loaded.chunk, ← same, kept, same, here]

theorem pagingSwitch_of_obj {chunk directory : Nat}
    (here : kernel.objs chunk = some (.chunk directory)) :
    (pagingSwitch chunk).run kernel = .ok ((), { kernel with currentDirectory := directory }) := by
  have loaded : (load Obj.chunk? chunk).run kernel = .ok (directory, kernel) :=
    load_of_obj here rfl
  rw [pagingSwitch, Exec.bind_of_ok loaded]
  rfl

theorem taskSwitch_of_holds {memory : TaskMemory} {value : Task} {pages : Nat → Nat}
    (holds : TaskHolds memory value pages kernel) :
    (taskSwitch memory.task).run kernel = .ok ((), { kernel with
      currentTask := memory.task, currentDirectory := memory.tables.directory }) := by
  have loaded : (load Obj.task? memory.task).run { kernel with currentTask := memory.task } =
      .ok (value, { kernel with currentTask := memory.task }) := load_of_obj holds.task rfl
  have chunk : ({ kernel with currentTask := memory.task } : Kernel).objs value.pageDirectory =
      some (.chunk memory.tables.directory) := holds.pageDirectory ▸ holds.map.chunk
  rw [taskSwitch, Exec.bind_of_ok (Exec.run_update _ _), Exec.bind_of_ok loaded,
    pagingSwitch_of_obj chunk]

/-- There is a next task as long as there is a task. -/
theorem taskNext_progress {memories : List TaskMemory}
    (state : TaskState region live memories kernel) (nonempty : memories ≠ []) :
    ∃ task next, taskNext.run kernel = .ok (task, next) := by
  have list := state.list
  have listed := list.current fun none => nonempty (List.map_eq_nil_iff.mp none)
  obtain ⟨position, inside, here⟩ := List.getElem_of_mem listed
  obtain ⟨value, found⟩ := list.present _ listed
  have following := List.mem_of_getElem?
    (list.getNext ((List.getElem?_eq_getElem inside).trans (congrArg _ here)) found)
  have notNull : (if value.next = 0 then kernel.taskHead else value.next) ≠ 0 := fun null =>
    list.notNull (null ▸ following)
  obtain ⟨memory, member, same⟩ := List.mem_map.mp following
  obtain ⟨_, _, holds⟩ := state.holds memory member
  have run : taskNext.run kernel = .ok (memory.task, { kernel with
      currentTask := memory.task, currentDirectory := memory.tables.directory }) := by
    rw [taskNext, Exec.bind_of_ok (taskGetNext_of_obj found), if_neg notNull, ← same,
      Exec.bind_of_ok (taskSwitch_of_holds holds), Exec.run_pure]
  exact ⟨_, _, run⟩

theorem processSwitchToAnyLoop_progress :
    ∀ (count i : Nat), i + count ≤ kernel.processes.length →
      ∃ next, (processSwitchToAnyLoop count i).run kernel = .ok ((), next) := by
  intro count
  induction count with
  | zero => exact fun i _ => ⟨kernel, rfl⟩
  | succ count ih =>
      intro i inside
      have read : (Exec.demand (Fault.bufferIndex (i : Int)) fun kernel : Kernel =>
          kernel.processes[i]?).run kernel = .ok (_, kernel) :=
        Exec.demand_of_some (List.getElem?_eq_getElem (by omega))
      rw [processSwitchToAnyLoop, Exec.bind_of_ok read]
      split
      · exact ⟨_, rfl⟩
      · exact ih (i + 1) (by omega)

/-- A process with an `id` of the table is taken out of it. -/
theorem processTerminate_progress {process : Nat} {value : Process}
    (here : kernel.objs process = some (.process value))
    (slots : kernel.processes.length = peachosMaxProcesses)
    (inside : value.id < peachosMaxProcesses) :
    ∃ res next, (processTerminate process).run kernel = .ok (res, next) := by
  have loaded : (load Obj.process? process).run kernel = .ok (value, kernel) :=
    load_of_obj here rfl
  have cleared : (writeProcesses value.id 0).run kernel =
      .ok ((), { kernel with processes := kernel.processes.set value.id 0 }) := by
    rw [writeProcesses, Exec.run_of, if_pos (by rw [slots]; exact inside)]
  obtain ⟨next, unlink⟩ : ∃ next, (processUnlink process).run kernel = .ok ((), next) := by
    rw [processUnlink, Exec.bind_of_ok loaded, Exec.bind_of_ok cleared,
      Exec.bind_of_ok (Exec.run_read _ _)]
    split
    · apply processSwitchToAnyLoop_progress
      change 0 + peachosMaxProcesses ≤ (kernel.processes.set value.id 0).length
      rw [List.length_set, slots, Nat.zero_add]
    · exact ⟨_, rfl⟩
  exact ⟨1, next, by rw [processTerminate, Exec.bind_of_ok unlink]; rfl⟩

/-- The registers of the current task are saved. -/
theorem taskCurrentSaveState_of_obj {value : Task}
    (here : kernel.objs kernel.currentTask = some (.task value)) (notNull : kernel.currentTask ≠ 0)
    (frame : InterruptFrame) : (taskCurrentSaveState frame).run kernel = .ok ((),
      kernel.setObj kernel.currentTask
        (some (.task { value with registers := frame.registers }))) := by
  have loaded : (load Obj.task? kernel.currentTask).run kernel = .ok (value, kernel) :=
    load_of_obj here rfl
  have present : (kernel.objs kernel.currentTask).isSome := by
    rw [here]
    rfl
  rw [taskCurrentSaveState, Exec.bind_of_ok (Exec.run_read _ _), if_neg notNull, taskSaveState,
    Exec.bind_of_ok loaded, store_of_live present]

/-- The kernel takes over and saves the registers of the current task. -/
theorem enter_progress {memories : List TaskMemory} (state : TaskState region live memories kernel)
    (nonempty : memories ≠ []) (paged : KernelPaged live kernel) (frame : InterruptFrame) :
    ∃ value middle saved, kernel.objs kernel.currentTask = some (.task value) ∧
      kernelPage.run kernel = .ok ((), middle) ∧
      (taskCurrentSaveState frame).run middle = .ok ((), saved) ∧
      TaskState region live memories saved ∧ saved.currentTask = kernel.currentTask ∧
      saved.processes = kernel.processes ∧
      saved.objs = (kernel.setObj kernel.currentTask
        (some (.task { value with registers := frame.registers }))).objs := by
  obtain ⟨_, _, _, chunk, chunkHere⟩ := paged
  have listed := state.list.current fun none => nonempty (List.map_eq_nil_iff.mp none)
  obtain ⟨value, here⟩ := state.list.present _ listed
  have page : kernelPage.run kernel = .ok ((), { kernel with currentDirectory := chunk }) := by
    rw [kernelPage, Exec.bind_of_ok (Exec.run_read _ _), pagingSwitch_of_obj chunkHere]
  have pagedState : TaskState region live memories { kernel with currentDirectory := chunk } :=
    state.switch rfl rfl rfl rfl listed
  have notNull : kernel.currentTask ≠ 0 := fun null => state.list.notNull (null ▸ listed)
  have saved := @taskCurrentSaveState_of_obj { kernel with currentDirectory := chunk } value here
    notNull frame
  have savedState := @TaskState.setTask _ _ _ _ pagedState kernel.currentTask value
    { value with registers := frame.registers } here rfl rfl rfl
  exact ⟨value, _, _, here, page, saved, savedState, rfl, rfl, rfl⟩

/-- **Progress of the clock** while there are tasks. -/
theorem clock_progress {memories : List TaskMemory} (state : TaskState region live memories kernel)
    (nonempty : memories ≠ []) (paged : KernelPaged live kernel) (frame : InterruptFrame) :
    ∃ task next, (interruptHandler 0x20 frame).run kernel = .ok (some task, next) := by
  obtain ⟨_, _, _, _, page, save, saved, _⟩ := enter_progress state nonempty paged frame
  obtain ⟨task, next, advance⟩ := taskNext_progress saved nonempty
  have isClock : interruptCallbacks 0x20 = some idtClock := by
    rw [interruptCallbacks, if_neg (by omega), if_pos rfl]
  exact ⟨task, next, by rw [interruptHandler, Exec.bind_of_ok page, isClock, Exec.bind_of_ok save,
    idtClock, Exec.bind_of_ok advance, Exec.run_pure]⟩

/-- **Progress of an exception** of a loaded process whose `id` is in the table. -/
theorem exception_progress (state : LoadedState region live records kernel)
    {record : LoadedProcess} (member : record ∈ records)
    (current : kernel.currentTask = taskOf record) (inside : record.id < peachosMaxProcesses)
    (paged : KernelPaged live kernel) {interrupt : Nat} (exception : interrupt < 0x20)
    (frame : InterruptFrame) : ∃ task next,
      (interruptHandler interrupt frame).run kernel = .ok (some task, next) := by
  have nonempty : records.map LoadedProcess.memory ≠ [] :=
    List.ne_nil_of_mem (List.mem_map_of_mem member)
  obtain ⟨value, middle, saved, here, page, save, savedState, savedCurrent, savedTable, savedObjs⟩ :=
    enter_progress state.tasks nonempty paged frame
  obtain ⟨value', here', owner⟩ := state.task record member
  obtain ⟨process, processHere, sameId, _⟩ := state.process record member
  rw [← taskOf, ← current, here] at here'
  cases here'
  have savedTask : saved.objs saved.currentTask =
      some (.task { value with registers := frame.registers }) := by
    rw [savedObjs, savedCurrent, Kernel.setObj_objs_self]
  have apart : record.process ≠ kernel.currentTask :=
    Kernel.ne_of_objs processHere here (by simp)
  have savedProcess : saved.objs value.process = some (.process process) := by
    rw [owner, savedObjs, Kernel.setObj_objs_of_ne _ _ apart, processHere]
  have loaded : (load Obj.task? saved.currentTask).run saved = .ok (_, saved) :=
    load_of_obj savedTask rfl
  obtain ⟨res, cleared, terminate⟩ := processTerminate_progress savedProcess
    (by rw [savedTable]; exact state.slots) (by rw [sameId]; exact inside)
  obtain ⟨_, currentProcess, _, same⟩ := processTerminate_completed terminate
  have clearedState : TaskState region live (records.map LoadedProcess.memory) cleared := by
    rw [same]
    exact savedState.switch rfl rfl rfl rfl (savedState.list.current fun none =>
      nonempty (List.map_eq_nil_iff.mp none))
  obtain ⟨task, next, advance⟩ := taskNext_progress clearedState nonempty
  have handle : idtHandleException.run saved = .ok (task, next) := by
    rw [idtHandleException, Exec.bind_of_ok (Exec.run_read _ _), Exec.bind_of_ok loaded,
      Exec.bind_of_ok terminate, advance]
  have isException : interruptCallbacks interrupt = some idtHandleException := by
    rw [interruptCallbacks, if_pos exception]
  exact ⟨task, next, by rw [interruptHandler, Exec.bind_of_ok page, isException,
    Exec.bind_of_ok save, Exec.bind_of_ok handle, Exec.run_pure]⟩

/-- A loaded process leaves the rest of the heap free. -/
theorem processLoad_progress (read : StreamRead) (filename : List UInt8)
    (state : LoadedState region live records kernel) (packed : Packed region live kernel used)
    (paged : KernelPaged live kernel) {slot : Nat} (free : kernel.processes[slot]? = some 0)
    (room : (used + processLoadBlocks) * peachosHeapBlockSize ≤ region.bytes) :
    ∃ live' record next, (processLoad read filename).run kernel =
        .ok ((0, record.process), next) ∧
      ProcessLoaded region live live' records kernel next record ∧
      Packed region live' next (used + processLoadBlocks) ∧ KernelPaged live' next := by
  obtain ⟨process, next, run, free'⟩ := processLoad_packed read filename state packed free room
  rcases processLoad_completed state run with ⟨negative, _⟩ | ⟨_, live', record, rfl, loaded⟩
  · dsimp only at negative
    omega
  · exact ⟨live', record, next, run, loaded, ⟨loaded.state.tasks.invariant, free'⟩,
      paged.loaded loaded⟩

section Interrupt

variable {interrupt : Nat} {frame : InterruptFrame} {result : Option Nat} {next : Kernel}

/-- An interrupt takes no memory. -/
theorem interruptHandler_packed (packed : Packed region live kernel used)
    (callback : interrupt ≤ 0x20)
    (run : (interruptHandler interrupt frame).run kernel = .ok (result, next)) :
    Packed region live next used := by
  obtain ⟨value, _, _, _, _, here, _, _, _, rfl⟩ := interruptHandler_completed callback run
  have present : (kernel.objs kernel.currentTask).isSome := by
    rw [here]
    rfl
  exact (packed.of_writes (@WritesOnly.setObj (fun _ => True) _ _ trivial present _)).of_same
    rfl rfl

theorem interruptHandler_paged (paged : KernelPaged live kernel) (callback : interrupt ≤ 0x20)
    (run : (interruptHandler interrupt frame).run kernel = .ok (result, next)) :
    KernelPaged live next := by
  obtain ⟨value, _, _, _, _, here, _, _, _, rfl⟩ := interruptHandler_completed callback run
  obtain ⟨allocation, member, same, chunk, chunkHere⟩ := paged
  have apart : kernel.kernelChunk ≠ kernel.currentTask := Kernel.ne_of_objs chunkHere here nofun
  exact ⟨allocation, member, same, chunk, (Kernel.setObj_objs_of_ne _ _ apart).trans chunkHere⟩

end Interrupt

/-- A fresh kernel with its page directory. -/
theorem bootPaged : ∃ live kernel, NoProcesses kernelHeapRegion live kernel ∧
    Packed kernelHeapRegion live kernel pagingBlocks ∧ KernelPaged live kernel := by
  obtain ⟨chunk, live, kernel, run, packed⟩ := @pagingNew4gb_packed _ 7 _ _ _
    (freshKernel_packed kernelHeapRegion) (by decide)
  obtain ⟨live', tables, rfl, _, extended, map⟩ :=
    pagingNew4gb_spec (freshKernel_invariant kernelHeapRegion) run
  obtain ⟨allocation, member, same⟩ := extended.held tables.chunk (.inl rfl)
  have globals := extended.globals
  have fresh : Packed kernelHeapRegion live' { kernel with kernelChunk := tables.chunk }
      pagingBlocks := by
    have last : Packed kernelHeapRegion live' kernel pagingBlocks := by
      refine ⟨extended.invariant, ?_⟩
      rw [← Nat.zero_add pagingBlocks]
      exact packed.free
    exact last.of_same rfl rfl
  refine ⟨live', { kernel with kernelChunk := tables.chunk }, ⟨fresh.invariant, ?_, ?_⟩, fresh,
    allocation, member, same, tables.directory, map.chunk⟩
  · rw [globals]
    exact ⟨rfl, rfl, trivial, iff_of_true rfl rfl, fun more => absurd rfl more, nofun, nofun, .nil⟩
  · rw [globals]
    rfl

/-- One process in a fresh kernel, in the first slot. -/
theorem bootLoaded (read : StreamRead) (filename : List UInt8) :
    ∃ live start live' record kernel, NoProcesses kernelHeapRegion live start ∧
      (processLoad read filename).run start = .ok ((0, record.process), kernel) ∧
      LoadedState kernelHeapRegion live' [record] kernel ∧ record.id = 0 ∧
      kernel.processes = start.processes.set 0 record.process ∧
      kernel.currentTask = taskOf record ∧
      Packed kernelHeapRegion live' kernel (pagingBlocks + processLoadBlocks) ∧
      KernelPaged live' kernel := by
  obtain ⟨live, start, none, packed, paged⟩ := bootPaged
  have free : start.processes[0]? = some 0 := by
    rw [none.slots]
    rfl
  obtain ⟨live', record, kernel, run, loaded, packed', paged'⟩ :=
    processLoad_progress read filename none.state packed paged free (by decide)
  have first : record.id = 0 := by
    by_contra positive
    exact loaded.least 0 (Nat.pos_of_ne_zero positive) free
  have stored := loaded.stored
  have current := loaded.current
  rw [first] at stored
  have noTask : start.taskHead = 0 := none.tasks.head
  rw [if_pos noTask] at current
  exact ⟨live, start, live', record, kernel, none, run, loaded.state, first, stored, current,
    packed', paged'⟩

end Peachos
