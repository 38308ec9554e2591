import Peachos.Task.ProcessBoot

/-! # When `process_load_for_slot` undoes a failure

`process_free_process` is a stub, and `task_new` and `paging_new_4gb` use the null pointers that
they are refused. So the call undoes a failure only where nothing was allocated yet: when the slot
is taken, or when the request for the process is refused. `processLoadForSlot_sound_iff` says so.
-/

namespace Peachos

open CInt FirstFit

/-- The slot holds a process. -/
def SlotTaken (kernel : Kernel) (slot : Nat) : Prop :=
  ∃ process, kernel.processes[slot]? = some process ∧ process ≠ 0

/-- There is room for the process, for its stack after it, and for its task anywhere. -/
structure ProcessFits (heap : Heap) : Prop where
  process : HasFreeRun heap.isFree heap.table.total (blocksFor sizeofProcess)
  stack : ∀ start, IsLeast {start | start + blocksFor sizeofProcess ≤ heap.table.total ∧
      FreeRun heap.isFree start (blocksFor sizeofProcess)} start →
    HasFreeRun (fun block => heap.isFree block &&
      !decide (start ≤ block ∧ block < start + blocksFor sizeofProcess)) heap.table.total
        (blocksFor peachosUserProgramStackSize)
  task : processLoadBlocks ≤ heap.freeBlocks

/-- A failure that leaves no trace. -/
structure LoadUndone (region : KernelRegion) (live : List Allocation) (kernel next : Kernel)
    (res : Int) : Prop where
  negative : res < 0
  processes : next.processes = kernel.processes
  invariant : KernelInvariant region live next

/-- The slot holds a process with a live task. -/
structure LoadStored (region : KernelRegion) (next : Kernel) (slot process : Nat) (value : Process)
    (task : Task) : Prop where
  stored : next.processes[slot]? = some process
  notNull : process ≠ 0
  processHere : next.objs process = some (.process value)
  live : ∃ live' memories, TaskState region live' memories next ∧
    value.task ∈ memories.map TaskMemory.task
  taskHere : next.objs value.task = some (.task task)
  owner : task.process = process

/-- The call returns, and it either fails without a trace or stores the process. -/
def LoadSound (read : StreamRead) (region : KernelRegion) (live : List Allocation)
    (kernel : Kernel) (filename : List UInt8) (slot : Nat) : Prop :=
  ∃ res process next,
    (processLoadForSlot read filename slot).run kernel = .ok ((res, process), next) ∧
      (LoadUndone region live kernel next res ∨
        res = 0 ∧ ∃ value task, LoadStored region next slot process value task)

section Load

variable {region : KernelRegion} {live : List Allocation} {memories : List TaskMemory}
  {kernel next : Kernel} {slot : Nat}

theorem processGet_taken (slots : kernel.processes.length = peachosMaxProcesses) {process : Nat}
    (here : kernel.processes[slot]? = some process) :
    (processGet slot).run kernel = .ok (process, kernel) := by
  have inside := (List.getElem?_eq_some_iff.mp here).1
  rw [processGet, if_neg (by unfold peachosMaxProcesses at *; omega)]
  exact Exec.demand_of_some here

/-- A slot that is not taken, or that is none, is reported to be free. -/
theorem processGet_free (slots : kernel.processes.length = peachosMaxProcesses)
    (free : ¬ SlotTaken kernel slot) : (processGet slot).run kernel = .ok (0, kernel) := by
  by_cases inside : slot < peachosMaxProcesses
  · have here := List.getElem?_eq_getElem (slots ▸ inside)
    have null : kernel.processes[slot] = 0 := by
      by_contra notNull
      exact free ⟨_, here, notNull⟩
    rw [null] at here
    exact processGet_taken slots here
  · rw [processGet, if_pos (by unfold peachosMaxProcesses at *; omega), Exec.run_pure]

/-- While an allocation is live, the heap does not encode the others alone. -/
theorem HeapInvariant.not_tail {region : HeapRegion} {heap : Heap} {allocation : Allocation}
    (inv : HeapInvariant region (allocation :: live) heap) : ¬ HeapInvariant region live heap := by
  intro others
  have nonempty := inv.extent_nonempty List.mem_cons_self
  have inside := inv.extent_inside List.mem_cons_self
  have apart := (List.pairwise_cons.mp inv.arranged.apart).1
  have covers : (region.extent allocation).Covers (region.extent allocation).start :=
    ⟨le_rfl, Nat.lt_add_of_pos_right nonempty⟩
  have before : (region.extent allocation).start < heap.table.total := by omega
  have free : heap.isFree (region.extent allocation).start = true :=
    (others.isFree_iff before).mpr fun other member there =>
      (apart _ (List.mem_map_of_mem member)).not_covers covers there
  exact (inv.isFree_iff before).mp free _ List.mem_cons_self covers

/-- The process is stored, and its task is the last one. -/
theorem TaskLoaded.stored {live' : List Allocation} {memory : TaskMemory} {process : Nat}
    (loaded : TaskLoaded region live live' memories kernel next memory process slot) :
    ∃ value task, LoadStored region next slot process value task := by
  obtain ⟨value, processHere, _, same⟩ := loaded.processHere
  obtain ⟨task, taskHere, owner⟩ := loaded.taskHere
  refine ⟨value, task, ?_, ?_, processHere, ⟨live', _, loaded.state, ?_⟩, same ▸ taskHere, owner⟩
  · rw [loaded.processes, List.getElem?_set_self loaded.inside]
  · rintro rfl
    rw [loaded.state.invariant.null] at processHere
    cases processHere
  · rw [same, List.map_append]
    exact List.mem_append_right _ (List.mem_singleton_self _)

/-- The blocks that are free after the process was allocated. -/
theorem Placed.isFree_process {start : Nat} {contents : Obj}
    (placed : Placed region live (⟨region.start + peachosHeapBlockSize * start, sizeofProcess⟩ ::
      live) kernel contents (region.start + peachosHeapBlockSize * start) next)
    (inv : KernelInvariant region live kernel) :
    next.heap.isFree = fun block => kernel.heap.isFree block &&
      !decide (start ≤ block ∧ block < start + blocksFor sizeofProcess) := by
  funext block
  rw [Bool.eq_iff_iff, placed.isFree_iff inv, Bool.and_eq_true, Bool.not_eq_true',
    decide_eq_false_iff_not]
  unfold Extent.Covers HeapRegion.extent peachosHeapBlockSize
  dsimp only
  rw [Nat.add_sub_cancel_left, Nat.mul_div_cancel_left _ (by decide)]

/-- After the request for the process: the one for the stack is refused, and the process stays
allocated; or everything that was asked for was there, and the process is stored. -/
theorem processFill_cases {read : StreamRead} {filename : List UInt8}
    (state : TaskState region live memories kernel) {process : Nat} {allocated : Kernel}
    (alloc : (kmalloc sizeofProcess (.process {})).run kernel = .ok (process, allocated))
    (fits : HasFreeRun kernel.heap.isFree kernel.heap.table.total (blocksFor sizeofProcess))
    (placed : Placed region live (⟨process, sizeofProcess⟩ :: live) kernel (.process {}) process
      allocated) {result : Int × Nat}
    (run : (processFill read filename process slot).run allocated = .ok (result, next)) :
    result = (-enomem, 0) ∧ ¬ HeapInvariant region.toHeapRegion live next.heap ∨
      result = (0, process) ∧ (slot < kernel.processes.length ∧ ProcessFits kernel.heap) ∧
        ∃ value task, LoadStored region next slot process value task := by
  have inv := state.invariant
  have present : (allocated.objs process).isSome := by
    rw [placed.present]
    rfl
  have cleared := placed.invariant.setObj present (.process {})
  obtain ⟨stack, stacked, allocStack, ⟨_, failed, rfl, rfl⟩ | ⟨placedStack, task⟩⟩ :=
    processFill_stack inv placed run
  · exact .inl ⟨failed, placed.invariant.heap.not_tail⟩
  have ready := @stackedProcess_of_placed _ _ _ filename inv _ slot _ _ _ placed placedStack
  obtain ⟨rfl, live', memory, loaded⟩ := processLoadTask_loaded (state.extended ready.extended)
    ⟨_, List.mem_cons_of_mem _ List.mem_cons_self, rfl⟩ ready.processHere ready.fits task
  have inside := loaded.inside
  have globals := ready.extended.globals
  rw [globals] at inside
  obtain ⟨_, _, new, _⟩ := Exec.bind_eq_ok.mp task
  have stackFits : HasFreeRun allocated.heap.isFree allocated.heap.table.total
      (blocksFor peachosUserProgramStackSize) := by
    rcases kmalloc_cases cleared (by decide) (by decide) allocStack with
      ⟨_, null, _⟩ | ⟨stackFits, _⟩
    · exact absurd null placedStack.notNull
    · exact stackFits
  refine .inr ⟨rfl, ⟨inside, fits, fun start least => ?_, ?_⟩, loaded.stored⟩
  · obtain ⟨start', allocated', least', alloc', _⟩ :=
      kmalloc_least inv (show 1 ≤ sizeofProcess by decide) (by decide) fits (.process {})
    rw [alloc] at alloc'
    obtain ⟨rfl, rfl⟩ := Prod.mk.inj (Except.ok.inj alloc')
    rw [least.unique least', ← placed.isFree_process inv,
      ← inv.heap.sameTotal placed.invariant.heap]
    exact stackFits
  · have blocks := taskNew_blocks ready.extended.invariant new
    have left := placed.freeBlocks inv
    have left' := placedStack.freeBlocks cleared
    change _ ≤ stacked.heap.freeBlocks at blocks
    change _ = allocated.heap.freeBlocks at left'
    rw [show blocksFor sizeofProcess = 3 by decide] at left
    rw [show blocksFor peachosUserProgramStackSize = 4 by decide] at left'
    unfold processLoadBlocks
    omega

/-- **A process that fits** is stored in its slot. -/
theorem processLoadForSlot_fits (read : StreamRead) (filename : List UInt8)
    (state : TaskState region live memories kernel)
    (slots : kernel.processes.length = peachosMaxProcesses) (inside : slot < peachosMaxProcesses)
    (free : ¬ SlotTaken kernel slot) (fits : ProcessFits kernel.heap) :
    LoadSound read region live kernel filename slot := by
  have inv := state.invariant
  obtain ⟨start, allocated, least, alloc, placed⟩ :=
    kmalloc_least inv (show 1 ≤ sizeofProcess by decide) (by decide) fits.process (.process {})
  obtain ⟨process, address⟩ : ∃ process, process = region.start + peachosHeapBlockSize * start :=
    ⟨_, rfl⟩
  have present : (allocated.objs process).isSome := by
    rw [address, placed.present]
    rfl
  have room : HasFreeRun (allocated.setObj process (some (.process {}))).heap.isFree
      (allocated.setObj process (some (.process {}))).heap.table.total
      (blocksFor peachosUserProgramStackSize) := by
    change HasFreeRun allocated.heap.isFree allocated.heap.table.total _
    rw [placed.isFree_process inv, inv.heap.sameTotal placed.invariant.heap]
    exact fits.stack start least
  rw [← address] at alloc placed
  have cleared := placed.invariant.setObj present (.process {})
  obtain ⟨stack, stacked, allocStack, placedStack⟩ := kmalloc_fits cleared
    (show 1 ≤ peachosUserProgramStackSize by decide) (by decide) room
    (.bytes (List.replicate peachosUserProgramStackSize 0))
  have enough : 0 + taskBlocks ≤ stacked.heap.freeBlocks := by
    have left := placed.freeBlocks inv
    have left' := placedStack.freeBlocks cleared
    have total := fits.task
    change _ = allocated.heap.freeBlocks at left'
    rw [show blocksFor sizeofProcess = 3 by decide] at left
    rw [show blocksFor peachosUserProgramStackSize = 4 by decide] at left'
    unfold processLoadBlocks at total
    omega
  obtain ⟨next, fill, _⟩ := @processFill_supplied _ _ _ read filename _ (freeSupply region) _ state
    _ _ slot 0 _ _ placed allocStack placedStack ⟨placedStack.invariant, enough⟩
    (slots ▸ inside)
  have stored : ∃ value task, LoadStored region next slot process value task := by
    rcases processFill_cases state alloc fits.process placed fill with ⟨failed, _⟩ | ⟨_, _, stored⟩
    · exact absurd (congrArg Prod.fst failed) (show (0 : Int) ≠ -enomem by decide)
    · exact stored
  refine ⟨0, process, next, ?_, .inr ⟨rfl, stored⟩⟩
  rw [processLoadForSlot, Exec.bind_of_ok (processGet_free slots free),
    if_neg (not_not.mpr rfl), kzalloc, Exec.bind_of_ok alloc, if_neg placed.notNull,
    Exec.bind_of_ok fill]
  rfl

/-- **When a failed load leaves no trace.** The call meets its contract exactly when the slot is
taken, or the request for the process is refused, or everything that it asks for is there. -/
theorem processLoadForSlot_sound_iff (read : StreamRead) (filename : List UInt8)
    (state : TaskState region live memories kernel)
    (slots : kernel.processes.length = peachosMaxProcesses) :
    LoadSound read region live kernel filename slot ↔
      SlotTaken kernel slot ∨ kernel.heap.Refuses sizeofProcess ∨
        slot < peachosMaxProcesses ∧ ProcessFits kernel.heap := by
  by_cases taken : SlotTaken kernel slot
  · refine iff_of_true ?_ (.inl taken)
    obtain ⟨process, here, notNull⟩ := taken
    refine ⟨-eistkn, 0, kernel, ?_, .inl ⟨by decide, rfl, state.invariant⟩⟩
    rw [processLoadForSlot, Exec.bind_of_ok (processGet_taken slots here), if_pos notNull,
      Exec.run_pure]
  have get := processGet_free slots taken
  constructor
  · rintro ⟨res, loaded, next, run, sound⟩
    right
    rw [processLoadForSlot, Exec.bind_of_ok get, if_neg (not_not.mpr rfl)] at run
    obtain ⟨process, allocated, alloc, run₁⟩ := Exec.bind_eq_ok.mp run
    rcases kmalloc_cases state.invariant (by decide) (by decide) alloc with
      ⟨refuses, _⟩ | ⟨fits, placed⟩
    · exact .inl refuses
    right
    rw [if_neg placed.notNull] at run₁
    obtain ⟨filled, last, fill, run₂⟩ := Exec.bind_eq_ok.mp run₁
    rcases processFill_cases state alloc fits placed fill with
      ⟨rfl, leaked⟩ | ⟨_, ⟨inside, room⟩, _⟩
    · cases run₂
      rcases sound with undone | ⟨zero, _⟩
      · exact absurd undone.invariant.heap leaked
      · exact absurd zero (by decide)
    · exact ⟨slots ▸ inside, room⟩
  · rintro (taken' | refuses | ⟨inside, fits⟩)
    · exact absurd taken' taken
    · refine ⟨-enomem, 0, kernel, ?_, .inl ⟨by decide, rfl, state.invariant⟩⟩
      rw [processLoadForSlot, Exec.bind_of_ok get, if_neg (not_not.mpr rfl), kzalloc,
        Exec.bind_of_ok (kmalloc_refused state.invariant (by decide) (by decide) refuses _),
        if_pos rfl, Exec.run_pure]
    · exact processLoadForSlot_fits read filename state slots inside taken fits

end Load

section Boot

variable {region : KernelRegion} {live : List Allocation} {kernel : Kernel} {used : Nat}

/-- A process fits after the taken blocks. -/
theorem Packed.processFits (packed : Packed region live kernel used)
    (room : (used + processLoadBlocks) * peachosHeapBlockSize ≤ region.bytes) :
    ProcessFits kernel.heap := by
  have total := packed.total
  have enough : used + processLoadBlocks ≤ kernel.heap.table.total := by
    unfold peachosHeapBlockSize at *
    omega
  have counted := packed.freeBlocks
  have inside : used + 7 ≤ kernel.heap.table.total :=
    le_trans (Nat.add_le_add_left (by decide) _) enough
  have process : FreeRun kernel.heap.isFree used 3 :=
    fun block after before => (packed.free block (by omega)).mpr after
  refine ⟨⟨used, by rw [show blocksFor sizeofProcess = 3 by decide]; omega, process⟩,
    fun start least => ?_, by omega⟩
  rw [show blocksFor sizeofProcess = 3 by decide] at least ⊢
  rw [show blocksFor peachosUserProgramStackSize = 4 by decide]
  have first : start ≤ used := least.2 ⟨by omega, process⟩
  refine ⟨used + 3, by omega, fun block after before => ?_⟩
  have free : kernel.heap.isFree block = true := (packed.free block (by omega)).mpr (by omega)
  have apart : ¬ (start ≤ block ∧ block < start + 3) := by omega
  dsimp only
  rw [free, decide_eq_false apart]
  rfl

/-- The first process of a booted kernel. -/
theorem processLoadForSlot_sound_boot : ∃ live kernel,
    NoProcesses kernelHeapRegion live kernel ∧
      ∀ read filename, LoadSound read kernelHeapRegion live kernel filename 0 := by
  obtain ⟨live, kernel, none, packed, _⟩ := bootPaged
  refine ⟨live, kernel, none, fun read filename => ?_⟩
  exact (processLoadForSlot_sound_iff read filename none.state.tasks none.state.slots).mpr
    (.inr (.inr ⟨by decide, packed.processFits (by decide)⟩))

/-- The request for the stack is refused, and the process stays allocated. -/
theorem processFill_refused (read : StreamRead) (filename : List UInt8)
    {process slot : Nat} {allocated : Kernel}
    (placed : Placed region live (⟨process, sizeofProcess⟩ :: live) kernel (.process {}) process
      allocated) (refuses : allocated.heap.Refuses peachosUserProgramStackSize) :
    ∃ next, (processFill read filename process slot).run allocated = .ok ((-enomem, 0), next) ∧
      next.heap = allocated.heap := by
  have present : (allocated.objs process).isSome := by
    rw [placed.present]
    rfl
  have still : ((allocated.setObj process (some (.process {}))).objs process).isSome := by
    rw [Kernel.setObj_objs_self]
    rfl
  have loaded : (load Obj.process? process).run (allocated.setObj process (some (.process {}))) =
      .ok (_, _) := load_of_obj (Kernel.setObj_objs_self ..) rfl
  have alloc := @kmalloc_refused region _ (allocated.setObj process (some (.process {})))
    (placed.invariant.setObj present _) peachosUserProgramStackSize (by decide) (by decide) refuses
    (.bytes (List.replicate peachosUserProgramStackSize 0))
  refine ⟨(allocated.setObj process (some (.process {}))).setObj process (some (.process {})), ?_,
    rfl⟩
  rw [processFill, processInit, Exec.bind_of_ok (store_of_live present),
    Exec.bind_of_ok (processLoadData_run ..), if_neg (by decide), kzalloc, Exec.bind_of_ok alloc,
    Exec.bind_of_ok loaded, Exec.bind_of_ok (store_of_live still), if_pos rfl, Exec.run_pure]

/-- The first blocks of a heap that is filled in two allocations are the free ones after the first
of them was freed. -/
theorem bootFragmented : ∃ live kernel, TaskState kernelHeapRegion live [] kernel ∧
    kernel.processes = List.replicate peachosMaxProcesses 0 ∧
    HasFreeRun kernel.heap.isFree kernel.heap.table.total 3 ∧ kernel.heap.freeBlocks ≤ 3 := by
  obtain ⟨first, k₁, address, _, packed₁, placed₁⟩ := kmalloc_packed
    (freshKernel_packed kernelHeapRegion) (show 1 ≤ 3 * 4096 by decide) (by decide)
    (show blocksFor (3 * 4096) = 3 by decide) (by decide) (.bytes [])
  obtain ⟨second, k₂, address', _, packed₂, placed₂⟩ := kmalloc_packed packed₁
    (show 1 ≤ 25597 * 4096 by decide) (by decide)
    (show blocksFor (25597 * 4096) = 25597 by decide) (by decide) (.bytes [])
  have present : (k₂.objs first).isSome := by
    rw [placed₂.kept _ List.mem_cons_self, placed₁.present]
    rfl
  obtain ⟨heap, _, inv⟩ := kfree_spec placed₂.invariant present
  have apart : second ≠ first := placed₂.fresh _ List.mem_cons_self |>.symm
  rw [List.filter_cons_of_pos (by simpa using apart), List.filter_cons_of_neg (by simp),
    List.filter_nil] at inv
  have globals : k₂.processes = List.replicate peachosMaxProcesses 0 ∧ k₂.taskHead = 0 ∧
      k₂.taskTail = 0 ∧ k₂.currentTask = 0 := by
    rw [placed₂.globals, placed₁.globals]
    exact ⟨rfl, rfl, rfl, rfl⟩
  have total : heap.table.total * 4096 = peachosHeapSizeBytes := inv.heap.total
  have size : heap.table.total = 25600 := by
    unfold peachosHeapSizeBytes at total
    omega
  have free : ∀ block < heap.table.total, heap.isFree block = true ↔ block < 3 := by
    intro block inside
    have covered := inv.heap.isFree_iff inside
    rw [List.forall_mem_singleton, address'] at covered
    refine covered.trans ?_
    unfold Extent.Covers HeapRegion.extent blocksFor peachosHeapBlockSize
    dsimp only
    omega
  refine ⟨_, _, ⟨inv, .nil, nofun, ⟨globals.2.1, globals.2.2.1, trivial, ?_, fun more =>
    absurd rfl more, nofun, nofun, .nil⟩⟩, globals.1, ⟨0, ?_, fun block _ before => ?_⟩, ?_⟩
  · exact iff_of_true globals.2.2.2 rfl
  · change 0 + 3 ≤ heap.table.total
    omega
  · exact (free block (by omega)).mpr (by omega)
  · calc heap.freeBlocks ≤ (Finset.range 3).card := Finset.card_le_card fun block member => by
          obtain ⟨inside, here⟩ := Finset.mem_filter.mp member
          exact Finset.mem_range.mpr ((free block (Finset.mem_range.mp inside)).mp here)
      _ = 3 := Finset.card_range 3

/-- **A leaked process.** With three free blocks left the call returns an error and keeps the
process allocated. -/
theorem processLoadForSlot_leaks : ∃ live kernel, TaskState kernelHeapRegion live [] kernel ∧
    kernel.processes = List.replicate peachosMaxProcesses 0 ∧ ∀ read filename,
      (∃ next, (processLoadForSlot read filename 0).run kernel = .ok ((-enomem, 0), next) ∧
        ¬ KernelInvariant kernelHeapRegion live next) ∧
      ¬ LoadSound read kernelHeapRegion live kernel filename 0 := by
  obtain ⟨live, kernel, state, empty, fits, few⟩ := bootFragmented
  refine ⟨live, kernel, state, empty, fun read filename => ?_⟩
  have inv := state.invariant
  have free : ¬ SlotTaken kernel 0 := by
    rintro ⟨process, here, notNull⟩
    rw [empty] at here
    exact notNull (Option.some.inj here).symm
  obtain ⟨process, allocated, alloc, placed⟩ := kmalloc_fits inv
    (show 1 ≤ sizeofProcess by decide) (by decide) fits (.process {})
  have full : allocated.heap.freeBlocks = 0 := by
    have left := placed.freeBlocks inv
    rw [show blocksFor sizeofProcess = 3 by decide] at left
    omega
  obtain ⟨next, fill, same⟩ := @processFill_refused _ _ _ read filename _ 0 _ placed
    (Heap.refuses_of_full full (by decide))
  have run : (processLoadForSlot read filename 0).run kernel = .ok ((-enomem, 0), next) := by
    rw [processLoadForSlot, Exec.bind_of_ok (processGet_free (by rw [empty]; rfl) free),
      if_neg (not_not.mpr rfl), kzalloc, Exec.bind_of_ok alloc, if_neg placed.notNull,
      Exec.bind_of_ok fill]
    rfl
  have leaked : ¬ KernelInvariant kernelHeapRegion live next := fun inv' =>
    placed.invariant.heap.not_tail (same ▸ inv'.heap)
  refine ⟨⟨next, run, leaked⟩, ?_⟩
  rintro ⟨_, _, next', run', undone | ⟨zero, _⟩⟩ <;> rw [run] at run' <;> cases run'
  · exact leaked undone.invariant
  · exact absurd zero (by decide)

end Boot

end Peachos
