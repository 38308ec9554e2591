import Peachos.Task.TaskMemory

/-! # `task_new` without memory

Every request of `task_new` is for one block. When one of them is refused, `task_new` and
`paging_new_4gb` go on with the null pointer, so no failing call refuses cleanly
(`taskNew_unsound`).
-/

namespace Peachos

open CInt

/-- The requests of `task_new`: the task, its directory, the tables, and the chunk. -/
def taskRequests : List Nat :=
  sizeofTask :: sizeofTable ::
    (List.replicate pagingTotalEntriesPerTable sizeofTable ++ [sizeofPaging4gbChunk])

/-- Make the requests in order until one is refused. -/
def requestAll : List Nat → K Bool
  | [] => pure true
  | size :: sizes => do
      let ptr ← kmalloc size (.bytes [])
      if ptr = 0 then pure false else requestAll sizes

/-- An allocation of `task_new` fails. -/
def AllocationFails (kernel : Kernel) : Prop :=
  ∃ next, (requestAll taskRequests).run kernel = .ok (false, next)

/-- The call returns a negative code, and the list of tasks stays as it is. -/
def RefusesCleanly (process : Nat) (kernel : Kernel) : Prop :=
  ∃ code next, (taskNew process).run kernel = .ok (code, next) ∧ i32 code < 0 ∧
    next.taskHead = kernel.taskHead ∧ next.taskTail = kernel.taskTail ∧
    next.currentTask = kernel.currentTask ∧
    ∀ task value, kernel.objs task = some (.task value) →
      ∃ value', next.objs task = some (.task value') ∧ value'.next = value.next ∧
        value'.prev = value.prev

section Requests

variable {region : KernelRegion} {live : List Allocation} {kernel : Kernel}

/-- A request for one block, whatever the heap is. -/
theorem kmalloc_oneBlock (inv : KernelInvariant region live kernel) {size : Nat}
    (oneBlock : blocksFor size = 1) (contents : Obj) :
    (kernel.heap.freeBlocks = 0 ∧ (kmalloc size contents).run kernel = .ok (0, kernel)) ∨
      ∃ ptr next, (kmalloc size contents).run kernel = .ok (ptr, next) ∧
        Placed region live (⟨ptr, size⟩ :: live) kernel contents ptr next ∧
        next.heap.freeBlocks + 1 = kernel.heap.freeBlocks := by
  have bounds : 1 ≤ size ∧ size ≤ 4096 := by
    unfold blocksFor peachosHeapBlockSize at oneBlock
    omega
  rcases Nat.eq_zero_or_pos kernel.heap.freeBlocks with full | some
  · exact .inl ⟨full, kmalloc_refused inv bounds.1 (by omega)
      (Heap.refuses_of_full full bounds.1) contents⟩
  · obtain ⟨ptr, next, run, placed, _⟩ := kmalloc_block inv oneBlock some contents
    have taken := placed.freeBlocks inv
    rw [oneBlock] at taken
    exact .inr ⟨ptr, next, run, placed, taken⟩

/-- Requests for one block fail exactly when there are fewer blocks than requests. -/
theorem requestAll_fails {sizes : List Nat} : ∀ {live : List Allocation} {kernel : Kernel},
    KernelInvariant region live kernel → (∀ size ∈ sizes, blocksFor size = 1) →
      ((∃ next, (requestAll sizes).run kernel = .ok (false, next)) ↔
        kernel.heap.freeBlocks < sizes.length) := by
  induction sizes with
  | nil =>
      intro live kernel _ _
      simp [requestAll]
  | cons size sizes ih =>
      intro live kernel inv oneBlock
      rw [requestAll, List.length_cons]
      rcases kmalloc_oneBlock inv (oneBlock size List.mem_cons_self) (.bytes []) with
        ⟨full, run⟩ | ⟨ptr, next, run, placed, taken⟩
      · rw [Exec.bind_of_ok run, if_pos rfl]
        exact iff_of_true ⟨kernel, Exec.run_pure _ _⟩ (by omega)
      · rw [Exec.bind_of_ok run, if_neg placed.notNull, ih placed.invariant
          fun other member => oneBlock other (List.mem_cons_of_mem _ member)]
        omega

theorem taskRequests_oneBlock : ∀ size ∈ taskRequests, blocksFor size = 1 := by
  simp [taskRequests, blocksFor, peachosHeapBlockSize, sizeofTask, sizeofPaging4gbChunk]

theorem taskRequests_length : taskRequests.length = taskBlocks := by
  simp only [taskRequests, taskBlocks, pagingBlocks, List.length_cons, List.length_append,
    List.length_replicate, List.length_nil]
  omega

/-- An allocation of `task_new` fails exactly when its blocks are not free. -/
theorem allocationFails_iff (inv : KernelInvariant region live kernel) :
    AllocationFails kernel ↔ kernel.heap.freeBlocks < taskBlocks := by
  rw [AllocationFails, requestAll_fails inv taskRequests_oneBlock, taskRequests_length]

end Requests

section NullPointer

variable {region : KernelRegion} {live : List Allocation} {kernel : Kernel} {flags : Nat}

theorem load_null (inv : KernelInvariant region live kernel) {α : Type} (view : Obj → Option α) :
    (load view 0).run kernel = .error (.badPointer 0) := by
  simp [load, Exec.demand, inv.null]

theorem store_null (inv : KernelInvariant region live kernel) (contents : Obj) :
    (store 0 contents).run kernel = .error (.badPointer 0) := by
  simp [store, inv.null]

/-- A table that is refused is written through the null pointer. -/
theorem pagingNew4gbLoop_refused (inv : KernelInvariant region live kernel)
    (full : kernel.heap.freeBlocks = 0) (directory count i : Nat) (offset : Int) :
    (pagingNew4gbLoop directory flags (count + 1) i offset).run kernel =
      .error (.badPointer 0) := by
  have refused := kmalloc_refused inv (by decide) (by decide)
    (Heap.refuses_of_full full (show 1 ≤ sizeofTable by decide)) (.dwords fun _ => 0)
  rw [pagingNew4gbLoop, kzalloc, Exec.bind_of_ok refused, Exec.bind_of_error (load_null inv _)]

/-- One of the tables is refused. -/
theorem pagingNew4gbLoop_exhausted {directory : Nat} :
    ∀ (count i : Nat) (offset : Int) (live : List Allocation) (kernel : Kernel),
      KernelInvariant region live kernel → (∃ allocation ∈ live, allocation.ptr = directory) →
      (∃ entries, kernel.objs directory = some (.dwords entries)) →
      kernel.heap.freeBlocks < count →
      (pagingNew4gbLoop directory flags count i offset).run kernel = .error (.badPointer 0) := by
  intro count
  induction count with
  | zero =>
      intro i offset live kernel _ _ _ short
      exact absurd short (Nat.not_lt_zero _)
  | succ count ih =>
      rintro i offset live kernel inv ⟨allocation, member, rfl⟩ ⟨entries, here⟩ short
      rcases kmalloc_oneBlock inv blocksFor_table (.dwords fun _ => 0) with
        ⟨full, _⟩ | ⟨entry, allocated, alloc, placed, taken⟩
      · exact pagingNew4gbLoop_refused inv full _ _ _ _
      have entryLive : (allocated.objs entry).isSome := by simp [placed.present]
      have loaded : (load Obj.dwords? entry).run allocated = .ok (_, allocated) :=
        load_of_obj placed.present rfl
      have stored : ∀ contents, (allocated.setObj entry contents).objs allocation.ptr =
          some (.dwords entries) := by
        intro contents
        rw [Kernel.setObj_objs_of_ne _ _ (placed.fresh allocation member),
          placed.kept allocation member, here]
      have directoryLive : ∀ contents,
          ((allocated.setObj entry contents).objs allocation.ptr).isSome := by
        intro contents
        simp [stored]
      have reloaded : ∀ contents, (load Obj.dwords? allocation.ptr).run
          (allocated.setObj entry contents) = .ok (entries, _) :=
        fun contents => load_of_obj (stored contents) rfl
      rw [pagingNew4gbLoop, kzalloc, Exec.bind_of_ok alloc, Exec.bind_of_ok loaded,
        Exec.bind_of_ok (store_of_live entryLive), Exec.bind_of_ok (reloaded _),
        Exec.bind_of_ok (store_of_live (directoryLive _))]
      refine ih _ _ _ _ ((placed.invariant.setObj entryLive _).setObj (directoryLive _) _)
        ⟨allocation, List.mem_cons_of_mem _ member, rfl⟩ ⟨_, Kernel.setObj_objs_self ..⟩ ?_
      simp only [Kernel.setObj_heap]
      omega

/-- **A page directory without its blocks.** -/
theorem pagingNew4gb_exhausted (inv : KernelInvariant region live kernel)
    (short : kernel.heap.freeBlocks < pagingBlocks) :
    (pagingNew4gb flags).run kernel = .error (.badPointer 0) := by
  rcases kmalloc_oneBlock inv blocksFor_table (.dwords fun _ => 0) with
    ⟨full, refused⟩ | ⟨directory, first, alloc, placed, taken⟩
  · rw [pagingNew4gb, kzalloc, Exec.bind_of_ok refused,
      Exec.bind_of_error (pagingNew4gbLoop_refused inv full _ _ _ _)]
  rw [pagingNew4gb, kzalloc, Exec.bind_of_ok alloc]
  by_cases tables : first.heap.freeBlocks < pagingTotalEntriesPerTable
  · exact Exec.bind_of_error (pagingNew4gbLoop_exhausted _ _ _ _ _ placed.invariant
      ⟨_, List.mem_cons_self, rfl⟩ ⟨_, placed.present⟩ tables)
  -- The tables take the remaining blocks, and it is the chunk that is refused.
  · obtain ⟨_, filled, loop, _⟩ := @pagingNew4gbLoop_supplied _ flags _ (freeSupply region) directory
      pagingTotalEntriesPerTable 0 0 0 _ first ⟨placed.invariant, by omega⟩
      ⟨_, List.mem_cons_self, rfl⟩ ⟨_, placed.present⟩
    obtain ⟨_, inv', left⟩ := pagingNew4gbLoop_blocks _ _ _ _ _ placed.invariant loop
    have full : filled.heap.freeBlocks = 0 := by
      unfold pagingBlocks at short
      omega
    have refused := kmalloc_refused inv' (by decide) (by decide)
      (Heap.refuses_of_full full (show 1 ≤ sizeofPaging4gbChunk by decide)) (.chunk 0)
    rw [Exec.bind_of_ok loop, kzalloc, Exec.bind_of_ok refused,
      Exec.bind_of_error (store_null inv' _)]

/-- **A task without its blocks.** A failing `task_new` uses the null pointer. -/
theorem taskNew_nullPointer (inv : KernelInvariant region live kernel)
    (fails : AllocationFails kernel) (process : Nat) :
    (taskNew process).run kernel = .error (.badPointer 0) := by
  have short := (allocationFails_iff inv).mp fails
  rcases kmalloc_oneBlock inv (show blocksFor sizeofTask = 1 by decide) (.task {}) with
    ⟨full, refused⟩ | ⟨task, allocated, alloc, placed, taken⟩
  · have freed : (taskFree 0).run kernel = .error (.badPointer 0) :=
      Exec.bind_of_error (load_null inv _)
    rw [taskNew, kzalloc, Exec.bind_of_ok refused, if_pos rfl, Exec.bind_of_error freed]
  · have taskLive : (allocated.objs task).isSome := by simp [placed.present]
    have remaining : (allocated.setObj task (some (.task {}))).heap.freeBlocks < pagingBlocks := by
      simp only [Kernel.setObj_heap]
      unfold taskBlocks at short
      omega
    have init : (taskInit task process).run allocated = .error (.badPointer 0) := by
      rw [taskInit, Exec.bind_of_ok (store_of_live taskLive), Exec.bind_of_error
        (pagingNew4gb_exhausted (placed.invariant.setObj taskLive _) remaining)]
    rw [taskNew, kzalloc, Exec.bind_of_ok alloc, if_neg placed.notNull, Exec.bind_of_error init]

/-- **Failing allocations.** Whatever the list of tasks and the process are, a `task_new` that is
refused an allocation does not refuse cleanly. -/
theorem taskNew_unsound (inv : KernelInvariant region live kernel)
    (fails : AllocationFails kernel) (process : Nat) : ¬ RefusesCleanly process kernel := by
  rintro ⟨code, next, run, _⟩
  rw [taskNew_nullPointer inv fails process] at run
  cases run

end NullPointer

/-- One allocation leaves `free` blocks in the heap of the booted kernel. -/
theorem filledKernel {free : Nat} (some : free < 25600) : ∃ live kernel,
    (kmalloc ((25600 - free) * 4096) (.bytes [])).run bootKernel =
      .ok (peachosHeapAddress, kernel) ∧
    KernelInvariant kernelHeapRegion live kernel ∧ kernel.heap.freeBlocks = free := by
  have needs : blocksFor ((25600 - free) * 4096) = 25600 - free := by
    unfold blocksFor peachosHeapBlockSize
    omega
  obtain ⟨ptr, kernel, rfl, run, packed, placed⟩ := kmalloc_packed
    (freshKernel_packed kernelHeapRegion) (by omega) (by omega) needs
    (show (0 + (25600 - free)) * 4096 ≤ 104857600 by omega) (.bytes [])
  refine ⟨_, kernel, run, packed.invariant, ?_⟩
  have taken := placed.freeBlocks (freshKernel_invariant kernelHeapRegion)
  have total : (freshKernel kernelHeapRegion).heap.freeBlocks = 25600 :=
    freshKernel_freeBlocks kernelHeapRegion
  omega

/-- A heap without a free block. -/
theorem taskNew_unsound_full : ∃ live kernel,
    (kmalloc 104857600 (.bytes [])).run bootKernel = .ok (peachosHeapAddress, kernel) ∧
      KernelInvariant kernelHeapRegion live kernel ∧ ¬ RefusesCleanly 0 kernel := by
  obtain ⟨live, kernel, run, inv, free⟩ := @filledKernel 0 (by decide)
  exact ⟨live, kernel, run, inv,
    taskNew_unsound inv ((allocationFails_iff inv).mpr (by rw [free]; decide)) 0⟩

/-- With 600 free blocks it is the table with number 598 that is refused. -/
theorem taskNew_crash : ∃ live kernel,
    (kmalloc 102400000 (.bytes [])).run bootKernel = .ok (peachosHeapAddress, kernel) ∧
      KernelInvariant kernelHeapRegion live kernel ∧ AllocationFails kernel ∧
      (taskNew 0).run kernel = .error (.badPointer 0) ∧ ¬ RefusesCleanly 0 kernel := by
  obtain ⟨live, kernel, run, inv, free⟩ := @filledKernel 600 (by decide)
  have fails := (allocationFails_iff inv).mpr (by rw [free]; decide)
  have fault := taskNew_nullPointer inv fails 0
  refine ⟨live, kernel, run, inv, fails, fault, ?_⟩
  rintro ⟨code, next, done, _⟩
  rw [fault] at done
  cases done

end Peachos
