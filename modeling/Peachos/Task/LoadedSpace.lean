import Peachos.Task.Serving

/-! # The address spaces of loaded processes

`process_load` is called any number of times, and processes are loaded until the memory or the
table is full. Each of them has its stack mapped, and nothing else that it may write to, since
`process_load_elf` loads no program. `MappedState` holds after every such run. From the first task on
every `UserRun` is then confined, and all that enters `interrupt_handler` or `isr80h_handler` in it is
served (`loadRun_confined`).
-/

namespace Peachos

open CInt X86

/-- Every process is mapped, its blocks hold bytes, and its task has the registers of
`task_init`. The kernel has its own page directory. -/
structure MappedState (region : KernelRegion) (live : List Allocation)
    (records : List ProcessMemory) (kernel : Kernel) : Prop where
  tasks : TaskState region live (records.map ProcessMemory.memory) kernel
  owned : Owned ProcessMemory.owns live records
  holds : ∀ record ∈ records, ProcessHolds record record.mappedPages kernel
  blocks : ∀ record ∈ records, ∀ block ∈ record.blocks, block ∈ live
  bytes : ∀ record ∈ records, HoldsBytes record kernel
  saved : ∀ record ∈ records, SavedAs kernel record.memory.task taskInitCpu
  paged : KernelPaged live kernel

/-- A process was loaded: it has its stack, and the other processes are as they were. -/
structure SpaceLoaded (region : KernelRegion) (live live' : List Allocation)
    (memories : List TaskMemory) (kernel next : Kernel) (record : ProcessMemory) : Prop where
  tasks : TaskState region live' (memories ++ [record.memory]) next
  grown : live ⊆ live'
  fresh : ∀ allocation ∈ live, ¬ record.memory.owns allocation.ptr
  held : ∀ ptr, record.memory.owns ptr → ∃ allocation ∈ live', allocation.ptr = ptr
  holds : ProcessHolds record record.mappedPages next
  saved : SavedAs next record.memory.task taskInitCpu
  kept : ∀ allocation ∈ live, allocation.ptr ≠ record.process →
    (∀ task, kernel.objs allocation.ptr ≠ some (.task task)) →
    next.objs allocation.ptr = kernel.objs allocation.ptr
  keptTask : ∀ other ∈ memories, ∀ value pages, TaskHolds other value pages kernel →
    ∃ after before, TaskHolds other { value with next := after, prev := before } pages next
  chunk : next.kernelChunk = kernel.kernelChunk

section Load

variable {region : KernelRegion} {live : List Allocation} {kernel next : Kernel}
  {process processSlot stack : Nat}

/-- **The task of a process and its memory.** -/
theorem processLoadTask_space {memories : List TaskMemory}
    (state : TaskState region live memories kernel) {filename : List UInt8}
    (allocated : ∃ allocation ∈ live, allocation.ptr = process)
    (here : kernel.objs process = some (.process
      { ({} : Process) with filename := filename, id := processSlot, stack := stack }))
    (fits : BlockFits peachosProgramVirtualStackAddressEnd stack peachosUserProgramStackSize)
    {result : Int × Nat}
    (run : (processLoadTask process processSlot).run kernel = .ok (result, next)) :
    ∃ live' memory, SpaceLoaded region live live' memories kernel next
      ⟨process, none, stack, memory⟩ := by
  obtain ⟨task, made, new, run₁⟩ := Exec.bind_eq_ok.mp run
  obtain ⟨live', memory, rfl, taskMade⟩ := taskNew_spec state new
  obtain ⟨allocation, member, rfl⟩ := allocated
  have processKept := taskMade.kept allocation member fun task => by
    rw [here]
    nofun
  rw [here] at processKept
  obtain ⟨_, _, found, typed, run₂⟩ := load_bind_eq_ok.mp run₁
  rw [processKept] at found
  cases found
  cases typed
  obtain ⟨_, run₃⟩ := store_bind_eq_ok.mp run₂
  obtain ⟨after, before, holds⟩ := taskMade.made
  have notNull : memory.task ≠ 0 := by
    intro null
    have present := holds.task
    rw [null, taskMade.state.invariant.null] at present
    cases present
  rw [if_neg notNull] at run₃
  obtain ⟨written, write⟩ : ∃ written, written = made.setObj allocation.ptr (some (.process
    { ({} : Process) with
      filename := filename, id := processSlot, stack := stack, task := memory.task })) := ⟨_, rfl⟩
  rw [← write] at run₃
  have apart : ∀ {ptr : Nat}, ptr ≠ allocation.ptr → written.objs ptr = made.objs ptr :=
    fun different => by rw [write, Kernel.setObj_objs_of_ne _ _ different]
  have tasks : TaskState region live' (memories ++ [memory]) written :=
    write ▸ taskMade.state.setProcess processKept _
  have taskHolds : ∀ {other : TaskMemory} {value : Task} {pages : Nat → Nat},
      TaskHolds other value pages made → TaskHolds other value pages written :=
    fun there => write ▸ there.setProcess processKept _
  have noProgram : BlockFits peachosProgramVirtualAddress 0 0 := ⟨rfl, by decide, by decide⟩
  have processHolds : ProcessHolds ⟨allocation.ptr, none, stack, memory⟩
      (identityPages taskPageFlags) written :=
    ⟨⟨_, by rw [write, Kernel.setObj_objs_self], rfl, rfl, rfl, rfl, rfl⟩, ⟨_, taskHolds holds⟩,
      noProgram, fits⟩
  obtain ⟨mapped, map, last, only⟩ := processMapMemory_spec processHolds
  obtain ⟨res, _, map', run₄⟩ := Exec.bind_eq_ok.mp run₃
  rw [map] at map'
  obtain ⟨rfl, rfl⟩ := Prod.mk.inj (Except.ok.inj map')
  rw [if_neg (by decide)] at run₄
  obtain ⟨_, _, stored, run₅⟩ := Exec.bind_eq_ok.mp run₄
  cases run₅
  obtain ⟨_, rfl⟩ := writeProcesses_completed stored
  obtain ⟨taskValue, taskHere⟩ := last.task
  have mappedTasks := tasks.writeTables (List.mem_append_right _ (List.mem_singleton_self _))
    taskHere only
  have listed : (memories ++ [memory]).map TaskMemory.task ≠ [] := by
    rw [List.map_append]
    exact List.append_ne_nil_of_right_ne_nil _ (List.cons_ne_nil _ _)
  have tables := (taskHolds holds).map
  refine ⟨live', memory, mappedTasks.switch rfl rfl rfl rfl (mappedTasks.list.current listed),
    taskMade.grown, taskMade.fresh, taskMade.held, last.of_kept rfl fun _ _ => rfl,
    ⟨_, (only.kept _ fun own => ?_).trans (taskHolds holds).task, rfl⟩, ?_, ?_, ?_⟩
  · exact tables.not_task own _ (taskHolds holds).task
  · intro other present different noTask
    have still := (apart different).trans (taskMade.kept other present noTask)
    exact (only.kept _ fun own => taskMade.fresh other present (.inr own)).trans still
  · intro other old value pages there
    obtain ⟨after, before, moved⟩ := taskMade.task other old value pages there
    refine ⟨after, before, (taskHolds moved).of_kept fun ptr own => only.kept ptr fun own' => ?_⟩
    obtain ⟨home, present, same⟩ := state.owned.held other old ptr own
    exact taskMade.fresh home present (.inr (same ▸ own'))
  · change mapped.kernelChunk = kernel.kernelChunk
    rw [only.globals, write]
    change made.kernelChunk = kernel.kernelChunk
    rw [taskMade.globals]

theorem KernelPaged.extended {live' : List Allocation} {new : Nat → Prop}
    (paged : KernelPaged live kernel) (extended : Extended region live live' kernel next new) :
    KernelPaged live' next := by
  obtain ⟨allocation, member, same, directory, here⟩ := paged
  have chunk : next.kernelChunk = kernel.kernelChunk := by rw [extended.globals]
  exact ⟨allocation, extended.grown member, same.trans chunk.symm, directory, by
    rw [chunk, ← same, extended.kept allocation member, same, here]⟩

/-- Objects elsewhere were allocated. -/
theorem MappedState.extended {records : List ProcessMemory} {live' : List Allocation}
    {new : Nat → Prop} (state : MappedState region live records kernel)
    (extended : Extended region live live' kernel next new) :
    MappedState region live' records next where
  tasks := state.tasks.extended extended
  owned := state.owned.grow extended.grown
  holds := fun _ member => (state.holds _ member).of_kept
    (state.owned.kept extended member (.inl rfl))
    fun _ own => state.owned.kept extended member (.inr (.inr own))
  blocks := fun record member block listed => extended.grown (state.blocks record member block listed)
  bytes := by
    intro record member block listed
    rw [extended.kept block (state.blocks record member block listed)]
    exact state.bytes record member block listed
  saved := by
    intro record member
    obtain ⟨value, here, registers⟩ := state.saved record member
    exact ⟨value, (state.owned.kept extended member (.inr (.inr (.inl rfl)))).trans here, registers⟩
  paged := state.paged.extended extended

/-- One more process. Its `struct process` and its stack were allocated before its task. -/
theorem MappedState.concat {records : List ProcessMemory} {live₁ live₂ : List Allocation}
    {middle : Kernel} {memory : TaskMemory} {new : Nat → Prop}
    (state : MappedState region live records kernel)
    (extended : Extended region live live₁ kernel middle new)
    (loaded : SpaceLoaded region live₁ live₂ (records.map ProcessMemory.memory) middle next
      ⟨process, none, stack, memory⟩)
    (isNew : new process ∧ new stack) (stackLive : ⟨stack, peachosUserProgramStackSize⟩ ∈ live₁)
    (bytes : ∃ contents, middle.objs stack = some (.bytes contents)) (apart : stack ≠ process) :
    MappedState region live₂ (records ++ [⟨process, none, stack, memory⟩]) next := by
  have before := state.extended extended
  have all := List.Subset.trans extended.grown loaded.grown
  have cases : ∀ other ∈ records ++ [(⟨process, none, stack, memory⟩ : ProcessMemory)],
      other ∈ records ∨ other = ⟨process, none, stack, memory⟩ :=
    fun other member => (List.mem_append.mp member).imp_right List.mem_singleton.mp
  have onlyStack : (⟨process, none, stack, memory⟩ : ProcessMemory).blocks =
      [⟨stack, peachosUserProgramStackSize⟩] := rfl
  have notNew : ∀ record ∈ records, ∀ ptr, record.owns ptr → ptr ≠ process ∧ ptr ≠ stack := by
    intro record member ptr own
    obtain ⟨home, present, rfl⟩ := state.owned.held record member ptr own
    exact ⟨fun same => extended.fresh home present (same ▸ isNew.1),
      fun same => extended.fresh home present (same ▸ isNew.2)⟩
  -- An old object other than a task is as it was.
  have kept : ∀ record ∈ records, ∀ ptr contents, record.owns ptr →
      middle.objs ptr = some contents → contents.task? = none → next.objs ptr = some contents := by
    intro record member ptr contents own here notTask
    obtain ⟨home, present, rfl⟩ := before.owned.held record member ptr own
    refine (loaded.kept home present (notNew record member _ own).1 fun task there => ?_).trans here
    rw [there] at here
    cases here
    cases notTask
  refine ⟨?_, (state.owned.add all ?_ ?_).perm (List.perm_append_singleton _ records).symm, ?_, ?_,
    ?_, ?_, ?_⟩
  · rw [List.map_append, List.map_singleton]
    exact loaded.tasks
  · rintro home present (same | ⟨block, listed, same⟩ | own)
    · exact extended.fresh home present (same ▸ isNew.1)
    · rw [onlyStack, List.mem_singleton] at listed
      rw [listed] at same
      exact extended.fresh home present (same ▸ isNew.2)
    · exact loaded.fresh home (extended.grown present) own
  · rintro ptr (rfl | ⟨block, listed, rfl⟩ | own)
    · obtain ⟨home, present, same⟩ := extended.held _ isNew.1
      exact ⟨home, loaded.grown present, same⟩
    · rw [onlyStack, List.mem_singleton] at listed
      exact ⟨block, listed ▸ loaded.grown stackLive, rfl⟩
    · exact loaded.held ptr own
  · intro record member
    rcases cases record member with old | rfl
    · obtain ⟨⟨value, here, described⟩, ⟨task, there⟩, fits⟩ := before.holds record old
      obtain ⟨_, _, moved⟩ := loaded.keptTask _ (List.mem_map_of_mem old) task _ there
      exact ⟨⟨value, kept record old _ _ (.inl rfl) here rfl, described⟩, ⟨_, moved⟩, fits⟩
    · exact loaded.holds
  · intro record member block listed
    rcases cases record member with old | rfl
    · exact all (state.blocks record old block listed)
    · rw [onlyStack, List.mem_singleton] at listed
      exact listed ▸ loaded.grown stackLive
  · intro record member block listed
    rcases cases record member with old | rfl
    · obtain ⟨contents, here⟩ := before.bytes record old block listed
      exact ⟨contents, kept record old _ _ (.inr (.inl ⟨block, listed, rfl⟩)) here rfl⟩
    · rw [onlyStack, List.mem_singleton] at listed
      obtain ⟨contents, here⟩ := bytes
      subst listed
      exact ⟨contents, (loaded.kept _ stackLive apart fun task => by rw [here]; nofun).trans here⟩
  · intro record member
    rcases cases record member with old | rfl
    · obtain ⟨value, here, registers⟩ := before.saved record old
      obtain ⟨task, there⟩ := (before.holds record old).task
      rw [there.task] at here
      cases here
      obtain ⟨_, _, moved⟩ := loaded.keptTask _ (List.mem_map_of_mem old) value _ there
      exact ⟨_, moved.task, registers⟩
    · exact loaded.saved
  · obtain ⟨home, present, same, _⟩ := state.paged
    obtain ⟨_, _, _, directory, here⟩ := before.paged
    have chunk : middle.kernelChunk = kernel.kernelChunk := by rw [extended.globals]
    refine ⟨home, all present, by rw [loaded.chunk, chunk, same], directory, ?_⟩
    rw [chunk, ← same] at here
    rw [loaded.chunk, chunk, ← same, loaded.kept home (extended.grown present)
      (fun same => extended.fresh home present (same ▸ isNew.1)) fun task there => ?_, here]
    rw [here] at there
    cases there

/-- **Filling a new process.** The request for its stack is refused, or it is loaded. -/
theorem processFill_space {read : StreamRead} {filename : List UInt8} {allocated : Kernel}
    {records : List ProcessMemory} (state : MappedState region live records kernel)
    (placed : Placed region live (⟨process, sizeofProcess⟩ :: live) kernel (.process {}) process
      allocated) {res : Int} {result : Nat}
    (run : (processFill read filename process processSlot).run allocated =
      .ok ((res, result), next)) :
    (res ≠ 0 ∧ ∃ live', MappedState region live' records next) ∨
      (res = 0 ∧ ∃ live' record, record.process = result ∧ record.program = none ∧
        MappedState region live' (records ++ [record]) next) := by
  obtain ⟨stack, stacked, _, ⟨_, same, rfl, rfl⟩ | ⟨placedStack, task⟩⟩ :=
    processFill_stack state.tasks.invariant placed run
  · cases same
    have extended := (((Extended.refl state.tasks.invariant).placed placed).setObj (.inl rfl)
      (.process {})).setObj (.inl rfl) (.process {})
    exact .inl ⟨by decide, _, state.extended extended⟩
  · have ready := @stackedProcess_of_placed _ _ _ filename state.tasks.invariant _ processSlot _ _ _
      placed placedStack
    have middle := state.tasks.extended ready.extended
    have listed : ∃ allocation ∈ (⟨stack, peachosUserProgramStackSize⟩ ::
        ⟨process, sizeofProcess⟩ :: live), allocation.ptr = process :=
      ⟨_, List.mem_cons_of_mem _ List.mem_cons_self, rfl⟩
    obtain ⟨same, _⟩ := processLoadTask_loaded middle listed ready.processHere ready.fits task
    cases same
    obtain ⟨live', memory, loaded⟩ :=
      processLoadTask_space middle listed ready.processHere ready.fits task
    have apart : stack ≠ process :=
      fun same => placedStack.fresh _ List.mem_cons_self same.symm
    have bytes : (stackedProcess filename process processSlot stack stacked).objs stack =
        some (.bytes (List.replicate peachosUserProgramStackSize 0)) := by
      rw [stackedProcess, Kernel.setObj_objs_of_ne _ _ apart, Kernel.setObj_objs_of_ne _ _ apart]
      exact placedStack.present
    exact .inr ⟨rfl, live', ⟨process, none, stack, memory⟩, rfl, rfl, state.concat ready.extended
      loaded ⟨.inr (.inl rfl), .inl rfl⟩ List.mem_cons_self ⟨_, bytes⟩ apart⟩

/-- `process_get` only reads. -/
theorem processGet_completed {processId : Int}
    (run : (processGet processId).run kernel = .ok (process, next)) : next = kernel := by
  unfold processGet at run
  split at run
  · cases run
    rfl
  · exact (Exec.demand_eq_ok.mp run).2

/-- **`process_load`.** -/
theorem processLoad_space {read : StreamRead} {filename : List UInt8}
    {records : List ProcessMemory} (state : MappedState region live records kernel)
    {res : Int} {result : Nat}
    (run : (processLoad read filename).run kernel = .ok ((res, result), next)) :
    (res ≠ 0 ∧ ∃ live', MappedState region live' records next) ∨
      (res = 0 ∧ ∃ live' record, record.process = result ∧ record.program = none ∧
        MappedState region live' (records ++ [record]) next) := by
  obtain ⟨slot, _, search, run₁⟩ := Exec.bind_eq_ok.mp run
  obtain ⟨rfl, _⟩ := processGetFreeSlotLoop_completed _ _ search
  by_cases full : slot < 0
  · rw [if_pos full] at run₁
    cases run₁
    exact .inl ⟨by decide, live, state⟩
  rw [if_neg full] at run₁
  obtain ⟨taken, _, get, run₂⟩ := Exec.bind_eq_ok.mp run₁
  obtain rfl := processGet_completed get
  by_cases used : taken ≠ 0
  · rw [if_pos used] at run₂
    cases run₂
    exact .inl ⟨by decide, live, state⟩
  rw [if_neg used] at run₂
  obtain ⟨process, allocated, alloc, run₃⟩ := Exec.bind_eq_ok.mp run₂
  rcases kmalloc_positive state.tasks.invariant (by decide) (by decide) alloc with
    ⟨rfl, rfl⟩ | placed
  · rw [if_pos rfl] at run₃
    cases run₃
    exact .inl ⟨by decide, live, state⟩
  rw [if_neg placed.notNull] at run₃
  obtain ⟨⟨res', filled⟩, last, fill, run₄⟩ := Exec.bind_eq_ok.mp run₃
  have outcome := processFill_space state placed fill
  dsimp only at run₄
  split at run₄
  next failed =>
      cases run₄
      rcases outcome with refused | ⟨rfl, _⟩
      · exact .inl refused
      · cases failed
  next =>
      cases run₄
      exact outcome

end Load

/-- Runs of `process_load`, with the processes that were loaded. -/
inductive LoadRun (read : StreamRead) (start : Kernel) : List Nat → Kernel → Prop
  | start : LoadRun read start [] start
  | loaded {processes : List Nat} {kernel next : Kernel} {filename : List UInt8} {process : Nat}
      (before : LoadRun read start processes kernel)
      (run : (processLoad read filename).run kernel = .ok ((0, process), next)) :
      LoadRun read start (processes ++ [process]) next
  | refused {processes : List Nat} {kernel next : Kernel} {filename : List UInt8} {res : Int}
      {process : Nat} (before : LoadRun read start processes kernel)
      (run : (processLoad read filename).run kernel = .ok ((res, process), next))
      (failed : res ≠ 0) : LoadRun read start processes next

/-- The process has no program: it starts at whatever the physical memory holds at the address of
its entry point, and can write to its stack only. -/
structure StackOnly (kernel : Kernel) (process : Nat) : Prop where
  entry : (userWalk process peachosProgramVirtualAddress).run kernel = .ok (some
    { address := peachosProgramVirtualAddress, user := true, writeable := false }, kernel)
  frames : ∃ value, kernel.objs process = some (.process value) ∧
    ∀ frame, UserWrites kernel process frame →
      (⟨value.stack, peachosUserProgramStackSize⟩ : Allocation).holdsFrame frame

section Runs

variable {region : KernelRegion} {live : List Allocation} {read : StreamRead}
  {start booted first : Kernel} {processes : List Nat}

/-- **Every run of `process_load`.** -/
theorem LoadRun.mapped (fresh : NoProcesses region live start) (paged : KernelPaged live start)
    (loads : LoadRun read start processes booted) :
    ∃ live' records, processes = records.map ProcessMemory.process ∧
      (∀ record ∈ records, record.program = none) ∧ MappedState region live' records booted := by
  induction loads with
  | start =>
      exact ⟨live, [], rfl, nofun, fresh.state.tasks, .nil, nofun, nofun, nofun, nofun, paged⟩
  | loaded _ run ih =>
      obtain ⟨live', records, rfl, noProgram, state⟩ := ih
      rcases processLoad_space state run with ⟨failed, _⟩ | ⟨_, live'', record, rfl, isNone, state'⟩
      · exact absurd rfl failed
      · refine ⟨live'', records ++ [record], by rw [List.map_append, List.map_singleton],
          fun other member => ?_, state'⟩
        rcases List.mem_append.mp member with old | last
        · exact noProgram other old
        · rwa [List.mem_singleton.mp last]
  | refused _ run failed ih =>
      obtain ⟨live', records, rfl, noProgram, state⟩ := ih
      rcases processLoad_space state run with ⟨_, live'', state'⟩ | ⟨success, _⟩
      · exact ⟨live'', records, rfl, noProgram, state'⟩
      · exact absurd success failed

/-- The same run, with what the table of processes and the tasks lead to. -/
theorem LoadRun.tabled (fresh : NoProcesses region live start)
    (loads : LoadRun read start processes booted) :
    ∃ live' records, processes = records.map LoadedProcess.process ∧
      (∀ record ∈ records, record.id < peachosMaxProcesses) ∧
      LoadedState region live' records booted := by
  induction loads with
  | start => exact ⟨live, [], rfl, nofun, fresh.state⟩
  | loaded _ run ih =>
      obtain ⟨live', records, rfl, inTable, state⟩ := ih
      rcases processLoad_completed state run with ⟨negative, _⟩ | ⟨_, live'', record, rfl, loaded⟩
      · exact absurd negative (lt_irrefl 0)
      · refine ⟨live'', records ++ [record], by rw [List.map_append, List.map_singleton],
          fun other member => ?_, loaded.state⟩
        rcases List.mem_append.mp member with old | last
        · exact inTable other old
        · rw [List.mem_singleton.mp last, ← state.slots]
          exact (List.getElem?_eq_some_iff.mp loaded.free).1
  | refused _ run failed ih =>
      obtain ⟨live', records, rfl, inTable, state⟩ := ih
      rcases processLoad_completed state run with ⟨_, live'', refused⟩ | ⟨success, _⟩
      · exact ⟨live'', records, rfl, inTable, refused.state⟩
      · exact absurd success failed

/-- The first task is started. -/
theorem MappedState.started {records : List ProcessMemory}
    (state : MappedState region live records booted) {task : Nat}
    (run : taskRunFirstEverTask.run booted = .ok (task, first)) :
    ConfinedState region live records first := by
  have translates := taskRunFirstEverTask_translates run
  obtain ⟨rfl, notNull, directory, rfl⟩ := taskRunFirstEverTask_completed run
  have listed : booted.taskHead ∈ (records.map ProcessMemory.memory).map TaskMemory.task := by
    have nonempty : (records.map ProcessMemory.memory).map TaskMemory.task ≠ [] :=
      fun none => notNull (state.tasks.list.currentNull.mpr none)
    rw [state.tasks.list.head]
    cases tasks : (records.map ProcessMemory.memory).map TaskMemory.task with
    | nil => exact absurd tasks nonempty
    | cons head rest => exact List.mem_cons_self
  refine ⟨state.tasks.switch rfl rfl rfl rfl listed, state.owned,
    fun record member => (state.holds record member).of_kept rfl fun _ _ => rfl, state.blocks,
    fun record member => state.bytes record member, fun record member => ?_, translates⟩
  obtain ⟨value, here, registers⟩ := state.saved record member
  refine ⟨value, here, ?_⟩
  change Cpu.privilege value.registers.cpu.cs = 3
  rw [registers]
  decide

/-- The `id` of the process at a pointer. -/
def Kernel.processId (kernel : Kernel) (process : Nat) : Nat :=
  ((kernel.objs process).bind Obj.process?).elim 0 Process.id

/-- The two views of the loaded processes agree. -/
theorem MappedState.serving {records : List ProcessMemory} {others : List LoadedProcess}
    {live' : List Allocation} (state : MappedState region live records booted)
    (table : LoadedState region live' others booted)
    (same : records.map ProcessMemory.process = others.map LoadedProcess.process)
    (inTable : ∀ record ∈ others, record.id < peachosMaxProcesses) {task : Nat}
    (run : taskRunFirstEverTask.run booted = .ok (task, first)) :
    ServingState region live records booted.processId first := by
  have confined := state.started run
  obtain ⟨rfl, _, directory, rfl⟩ := taskRunFirstEverTask_completed run
  have view : ∀ record ∈ records, ∃ value owner,
      booted.objs record.process = some (.process value) ∧ value.task = record.memory.task ∧
      booted.processId record.process = value.id ∧ value.id < peachosMaxProcesses ∧
      booted.objs record.memory.task = some (.task owner) ∧ owner.process = record.process := by
    intro record member
    obtain ⟨other, listed, here⟩ := List.mem_map.mp (same ▸ List.mem_map_of_mem member)
    obtain ⟨value, there, id, task⟩ := table.process other listed
    obtain ⟨owner, taskHere, owns⟩ := table.task other listed
    obtain ⟨value', there', described⟩ := (state.holds record member).process
    rw [here, there'] at there
    cases there
    refine ⟨value, owner, there', described.task, ?_, id ▸ inTable other listed, ?_, owns.trans here⟩
    · rw [Kernel.processId, there']
      rfl
    · rw [← described.task, task]
      exact taskHere
  refine ⟨confined, ⟨?_, ?_, ?_, ?_, ?_, table.slots⟩, fun record member => ?_, ?_⟩
  · rw [List.map_map]
    exact confined.tasks
  · intro loaded member
    obtain ⟨record, listed, rfl⟩ := List.mem_map.mp member
    obtain ⟨value, _, here, task, id, _⟩ := view record listed
    exact ⟨value, here, id.symm, task⟩
  · intro loaded member
    obtain ⟨record, listed, rfl⟩ := List.mem_map.mp member
    obtain ⟨_, owner, _, _, _, _, here, owns⟩ := view record listed
    exact ⟨owner, here, owns⟩
  · intro loaded member
    obtain ⟨record, listed, rfl⟩ := List.mem_map.mp member
    exact state.owned.held record listed _ (.inl rfl)
  · rw [List.map_map]
    change (records.map ProcessMemory.process).Nodup
    rw [same]
    exact table.distinct
  · obtain ⟨_, _, _, _, id, inside, _⟩ := view record member
    rwa [id]
  · exact state.paged

/-- A process without a program. -/
theorem ConfinedState.stackOnly {records : List ProcessMemory} {kernel : Kernel}
    (state : ConfinedState region live records kernel) {record : ProcessMemory}
    (member : record ∈ records) (none : record.program = none) :
    StackOnly kernel record.process := by
  obtain ⟨value, here, same, maps⟩ :=
    mapsOwn_of_holds (state.holds record member) (state.blocks record member)
  have stack : value.blocks = [⟨record.stack, peachosUserProgramStackSize⟩] := by
    rw [same, ProcessMemory.blocks, none]
    rfl
  obtain ⟨value', there, described⟩ := (state.holds record member).process
  rw [here] at there
  cases there
  have empty : value.size = 0 := by
    rw [described.size, ProcessMemory.size, none]
    rfl
  refine ⟨maps.other _ (by decide) ?_, value, here, fun frame writes => ?_⟩
  · unfold Process.mapsPage
    rw [empty]
    decide
  · obtain ⟨block, listed, holds⟩ := maps.frames frame writes
    rw [stack, List.mem_singleton] at listed
    rwa [described.stack, ← listed]

/-- In every `UserRun` from `first` the processor is in the address space of the current task; no
process has a program, and each can write to its own stack only; every interrupt that enters
`interrupt_handler` and every system call is served; and from each state of the run to each later one
only the stacks of the processes whose tasks stored something in between have changed, and saved
registers. -/
def StaysConfined (live : List Allocation) (processes : List Nat) (first : Kernel) : Prop :=
  ∀ ran kernel, UserRun live first ran kernel → RunsInOwnSpace live processes kernel ∧
    (∀ process ∈ processes, StackOnly kernel process) ∧ ServesTraps kernel ∧
    ∀ ran' later, UserRun live kernel ran' later →
      later.heap = kernel.heap ∧ KeepsOthers processes ran' kernel later

theorem ServingState.staysConfined {records : List ProcessMemory} {ids : Nat → Nat}
    (state : ServingState region live records ids first)
    (noProgram : ∀ record ∈ records, record.program = none) :
    StaysConfined live (records.map ProcessMemory.process) first := by
  intro ran kernel before
  obtain ⟨confined, _, _⟩ := before.confined state.confined
  refine ⟨confined.runsInOwnSpace, fun process member => ?_, (before.serving state).serves,
    fun ran' later after => ?_⟩
  · obtain ⟨record, listed, rfl⟩ := List.mem_map.mp member
    exact confined.stackOnly listed (noProgram record listed)
  · obtain ⟨_, heap, kept⟩ := after.confined confined
    exact ⟨heap, confined.keepsOthers kept⟩

/-- **Loaded processes.** `process_load` is called any number of times, whether the calls succeed or
not, and the first task is started: from then on every `UserRun` stays confined. -/
theorem loadRun_confined (fresh : NoProcesses region live start) (paged : KernelPaged live start)
    (loads : LoadRun read start processes booted) {task : Nat}
    (run : taskRunFirstEverTask.run booted = .ok (task, first)) :
    ∃ live', KernelInvariant region live' booted ∧ StaysConfined live' processes first := by
  obtain ⟨_, others, rfl, inTable, table⟩ := loads.tabled fresh
  obtain ⟨live', records, same, noProgram, mapped⟩ := loads.mapped fresh paged
  rw [same]
  exact ⟨live', mapped.tasks.invariant,
    (mapped.serving table same.symm inTable run).staysConfined noProgram⟩

end Runs

/-- Two processes are loaded in a fresh kernel, and the first one stores a byte. -/
theorem loadRun_confined_boot : ∃ live start first second booted started later,
    LoadRun diskstreamerRead start [first, second] booted ∧ first ≠ second ∧
    UserRun live started [started.currentTask] later ∧
    RunsInOwnSpace live [first, second] later ∧ StackOnly later second ∧ ServesTraps later ∧
    KeepsOthers [first, second] [started.currentTask] started later := by
  obtain ⟨_, start, none, packed₀, paged₀⟩ := bootPaged
  have free₀ : start.processes[0]? = some 0 := by
    rw [none.slots]
    rfl
  obtain ⟨_, first, k₁, run₁, loaded₁, packed₁, paged₁⟩ := processLoad_progress diskstreamerRead []
    none.state packed₀ paged₀ free₀ (by decide)
  have slot : first.id = 0 := by
    by_contra positive
    exact loaded₁.least 0 (Nat.pos_of_ne_zero positive) free₀
  have free₁ : k₁.processes[1]? = some 0 := by
    rw [loaded₁.stored, slot, none.slots]
    rfl
  obtain ⟨_, second, k₂, run₂, loaded, _, _⟩ := processLoad_progress diskstreamerRead []
    loaded₁.state packed₁ paged₁ free₁ (by decide)
  have loads := (LoadRun.start.loaded run₁).loaded run₂
  obtain ⟨started, run⟩ := taskRunFirstEverTask_runs loaded.state.tasks (List.cons_ne_nil _ _)
  obtain ⟨live', held, confined⟩ := loadRun_confined none paged₀ loads run
  have present : ∀ allocation ∈ live', (started.objs allocation.ptr).isSome := by
    obtain ⟨_, _, directory, rfl⟩ := taskRunFirstEverTask_completed run
    exact held.held
  obtain ⟨own, _, _, later⟩ := confined _ _ .start
  obtain ⟨next, store⟩ := own.store present 1
  obtain ⟨own', only, serves, _⟩ := confined _ _ store
  have different : first.process ≠ second.process :=
    (List.nodup_cons.mp loaded.state.distinct).1 ∘ fun same => List.mem_singleton.mpr same
  exact ⟨live', start, first.process, second.process, k₂, started, next, loads, different, store,
    own', only _ (List.mem_cons_of_mem _ List.mem_cons_self), serves, (later _ _ store).2⟩

end Peachos
