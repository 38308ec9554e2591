import Peachos.Task.Process
import Peachos.Task.TaskLife

/-! # The memory of a process

A process owns its `struct process`, its task, its stack and, unless it has none, its program.
`processSetUp` allocates them as `process_load_for_slot` and `process_load_binary` do, and
`process_map_memory` maps the program and the stack into the page directory of the task
(`processMapMemory_spec`).
-/

namespace Peachos

open CInt

/-- The program block of a process, as `process_load_binary` allocates it: whether there is
memory for it. -/
def processSetUpProgram (process : Nat) : Option Nat → K Bool
  | none => pure true
  | some size => do
      let programDataPtr ← kzalloc size (.bytes (List.replicate size 0))
      if programDataPtr = 0 then pure false
      else do
        let value ← load Obj.process? process
        store process (.process { value with
          filetype := processFiletypeBinary
          ptr := programDataPtr
          size := size })
        pure true

/-- The stack and the task of a process; null if there is no memory for the stack. -/
def processSetUpTask (process : Nat) : K Nat := do
  let stack ← kzalloc peachosUserProgramStackSize
    (.bytes (List.replicate peachosUserProgramStackSize 0))
  let value ← load Obj.process? process
  store process (.process { value with stack := stack })
  if stack = 0 then pure 0
  else do
    let task ← taskNew process
    let value ← load Obj.process? process
    store process (.process { value with task := task })
    pure process

/-- A new process with a program block of the given size or none; null if there is no memory
for it. -/
def processSetUp (program : Option Nat) : K Nat := do
  let process ← kzalloc sizeofProcess (.process {})
  if process = 0 then pure 0
  else do
    processInit process
    let held ← processSetUpProgram process program
    if held then processSetUpTask process else pure 0

/-- The allocation of a program; a program of no bytes takes no block. -/
def programBlocks (program : Option Allocation) : List Allocation :=
  program.toList.filter fun block => 0 < block.size

/-- The objects of a process. -/
structure ProcessMemory where
  process : Nat
  program : Option Allocation
  stack : Nat
  memory : TaskMemory

namespace ProcessMemory

def ptr (record : ProcessMemory) : Nat := (record.program.map Allocation.ptr).getD 0

def size (record : ProcessMemory) : Nat := (record.program.map Allocation.size).getD 0

/-- The allocations that the process maps. -/
def blocks (record : ProcessMemory) : List Allocation :=
  ⟨record.stack, peachosUserProgramStackSize⟩ :: programBlocks record.program

def owns (record : ProcessMemory) (ptr : Nat) : Prop :=
  ptr = record.process ∨ (∃ block ∈ record.blocks, ptr = block.ptr) ∨ record.memory.owns ptr

/-- The first page of the program in the address space of its process. -/
def programPage : Nat := peachosProgramVirtualAddress / pagingPageSize

/-- The first page of the stack in the address space of its process. -/
def stackPage : Nat := peachosProgramVirtualStackAddressEnd / pagingPageSize

/-- The number of pages of the stack. -/
def stackPages : Nat := peachosUserProgramStackSize / pagingPageSize

/-- The pages of the process after `process_map_memory`. -/
def mappedPages (record : ProcessMemory) : Nat → Nat :=
  mapPages (mapPages (identityPages taskPageFlags) programPage (record.ptr / pagingPageSize)
    (blocksFor record.size) userPageFlags) stackPage (record.stack / pagingPageSize) stackPages
      userPageFlags

end ProcessMemory

/-- A block of whole pages that fits into the address space at the given address. -/
structure BlockFits (virt ptr size : Nat) : Prop where
  aligned : ptr % pagingPageSize = 0
  bound : ptr + pagingPageSize * blocksFor size ≤ 2147483648
  inside : virt + pagingPageSize * blocksFor size ≤ 4294967296

/-- The program and the stack of a process fit into its address space. -/
structure ProcessMemory.Fits (record : ProcessMemory) : Prop where
  program : BlockFits peachosProgramVirtualAddress record.ptr record.size
  stack : BlockFits peachosProgramVirtualStackAddressEnd record.stack peachosUserProgramStackSize

/-- The `struct process` that describes the record. -/
structure Describes (record : ProcessMemory) (value : Process) : Prop where
  filetype : value.filetype =
    if record.program.isSome then processFiletypeBinary else processFiletypeElf
  ptr : value.ptr = record.ptr
  size : value.size = record.size
  stack : value.stack = record.stack
  task : value.task = record.memory.task

/-- The objects of a process with their contents. -/
structure ProcessHolds (record : ProcessMemory) (pages : Nat → Nat) (kernel : Kernel) : Prop where
  process : ∃ value, kernel.objs record.process = some (.process value) ∧ Describes record value
  task : ∃ value, TaskHolds record.memory value pages kernel
  fits : record.Fits

section Map

variable {record : ProcessMemory} {kernel : Kernel} {pages : Nat → Nat}

/-- Rounding the end of a block up to a page. -/
theorem pagingAlignAddress_end {ptr size : Nat} (aligned : ptr % pagingPageSize = 0)
    (bound : ptr + pagingPageSize * blocksFor size ≤ 2147483648) :
    pagingAlignAddress (u32 (ptr + size : Nat)) =
      (ptr / pagingPageSize + blocksFor size) * pagingPageSize := by
  have covers := size_le_blocksFor size
  unfold pagingAlignAddress
  unfold blocksFor peachosHeapBlockSize pagingPageSize at *
  rw [u32_natCast (by omega)]
  split
  · rw [u32_of_nonneg (by omega) (by omega)]
    omega
  · omega

/-- Mapping a block of whole pages. -/
theorem pagingMapTo_block {tables : PageTables} (map : PageMap tables taskPageFlags pages kernel)
    {virtPage ptr size : Nat} (fits : BlockFits (virtPage * pagingPageSize) ptr size)
    (word : virtPage < 1048576) :
    ∃ next, (pagingMapTo tables.chunk (virtPage * pagingPageSize) ptr
        (pagingAlignAddress (u32 (ptr + size : Nat))) userPageFlags).run kernel = .ok (0, next) ∧
      PageMap tables taskPageFlags (mapPages pages virtPage (ptr / pagingPageSize)
        (blocksFor size) userPageFlags) next ∧
      WritesOnly tables.owns kernel next := by
  obtain ⟨aligned, bound, inside⟩ := fits
  have whole : ptr / pagingPageSize * pagingPageSize = ptr := by
    unfold pagingPageSize at *
    omega
  obtain ⟨next, run, map', only⟩ := @pagingMapTo_spec tables taskPageFlags pages kernel
    taskPageFlags_small userPageFlags map (blocksFor size) virtPage (ptr / pagingPageSize)
    (by unfold pagingPageSize at *; omega) (by unfold pagingPageSize at *; omega) word
    (by unfold pagingPageSize at *; omega)
  rw [whole] at run
  exact ⟨next, by rw [pagingAlignAddress_end aligned bound]; exact run, map', only⟩

/-- Mapping a block of the task of a process. -/
theorem taskMap_block {memory : TaskMemory} {task : Task}
    (holds : TaskHolds memory task pages kernel) {virtPage ptr size : Nat}
    (fits : BlockFits (virtPage * pagingPageSize) ptr size) (word : virtPage < 1048576) :
    ∃ next, (pagingMapTo task.pageDirectory (virtPage * pagingPageSize) ptr
        (pagingAlignAddress (u32 (ptr + size : Nat))) userPageFlags).run kernel = .ok (0, next) ∧
      TaskHolds memory task (mapPages pages virtPage (ptr / pagingPageSize)
        (blocksFor size) userPageFlags) next ∧
      WritesOnly memory.tables.owns kernel next := by
  obtain ⟨next, run, map, only⟩ := pagingMapTo_block holds.map fits word
  refine ⟨next, by rw [holds.pageDirectory]; exact run, ⟨?_, holds.pageDirectory, map⟩, only⟩
  rw [only.kept _ fun own => holds.map.not_task own task holds.task, holds.task]

/-- The part of `process_map_memory` before the stack: `process_map_elf` maps nothing, and
`process_map_binary` maps the program. -/
theorem processMapProgram_spec {task : Task} (holds : TaskHolds record.memory task pages kernel)
    (fits : record.Fits) {value : Process}
    (here : kernel.objs record.process = some (.process value)) (described : Describes record value) :
    ∃ next, (if value.filetype = processFiletypeElf then processMapElf record.process
        else if value.filetype = processFiletypeBinary then processMapBinary record.process
        else panic "process_map_memory: Invalid filetype\n" : K Int).run kernel = .ok (0, next) ∧
      TaskHolds record.memory task (mapPages pages ProcessMemory.programPage
        (record.ptr / pagingPageSize) (blocksFor record.size) userPageFlags) next ∧
      WritesOnly record.memory.tables.owns kernel next := by
  have loaded : (load Obj.process? record.process).run kernel = .ok (value, kernel) :=
    load_of_obj here rfl
  have loadedTask : (load Obj.task? value.task).run kernel = .ok (task, kernel) := by
    rw [described.task]
    exact load_of_obj holds.task rfl
  have filetype := described.filetype
  cases program : record.program with
  | none =>
      rw [program] at filetype
      have empty : record.size = 0 := by rw [ProcessMemory.size, program]; rfl
      refine ⟨kernel, ?_, ?_, .refl kernel⟩
      · have elf : value.filetype = processFiletypeElf := filetype
        rw [if_pos elf]
        rfl
      · rw [empty, show blocksFor 0 = 0 from rfl, mapPages_zero]
        exact holds
  | some block =>
      rw [program] at filetype
      have binary : value.filetype = processFiletypeBinary := filetype
      obtain ⟨next, run, holds', only⟩ := @taskMap_block _ _ _ _ holds ProcessMemory.programPage
        record.ptr record.size fits.program (by decide)
      refine ⟨next, ?_, holds', only⟩
      have start : ProcessMemory.programPage * pagingPageSize = peachosProgramVirtualAddress := rfl
      rw [start] at run
      rw [if_neg (by rw [binary]; decide), if_pos binary, processMapBinary,
        Exec.bind_of_ok loaded, Exec.bind_of_ok loadedTask, described.ptr, described.size,
        ← Nat.cast_add, Exec.bind_of_ok run, Exec.run_pure]

/-- **`process_map_memory`.** It maps the program and the stack of the process. -/
theorem processMapMemory_spec (holds : ProcessHolds record (identityPages taskPageFlags) kernel) :
    ∃ next, (processMapMemory record.process).run kernel = .ok (0, next) ∧
      ProcessHolds record record.mappedPages next ∧
      WritesOnly record.memory.tables.owns kernel next := by
  obtain ⟨value, here, described⟩ := holds.process
  obtain ⟨task, taskHolds⟩ := holds.task
  obtain ⟨middle, mapped, taskHolds', only⟩ :=
    processMapProgram_spec taskHolds holds.fits here described
  have hereMiddle : middle.objs record.process = some (.process value) := by
    rw [only.kept _ fun own => taskHolds.not_process (.inr own) value here, here]
  obtain ⟨next, run, taskHolds'', only'⟩ := @taskMap_block _ _ _ _ taskHolds'
    ProcessMemory.stackPage record.stack peachosUserProgramStackSize holds.fits.stack (by decide)
  have start : ProcessMemory.stackPage * pagingPageSize =
      peachosProgramVirtualStackAddressEnd := rfl
  rw [start] at run
  have hereNext : next.objs record.process = some (.process value) := by
    rw [only'.kept _ fun own => taskHolds'.not_process (.inr own) value hereMiddle, hereMiddle]
  have loaded : (load Obj.process? record.process).run kernel = .ok (value, kernel) :=
    load_of_obj here rfl
  have reloaded : (load Obj.process? record.process).run middle = .ok (value, middle) :=
    load_of_obj hereMiddle rfl
  have loadedTask : (load Obj.task? value.task).run middle = .ok (task, middle) := by
    rw [described.task]
    exact load_of_obj taskHolds'.task rfl
  have stack : (processMapStack record.process).run middle = .ok ((), next) := by
    rw [processMapStack, Exec.bind_of_ok reloaded, Exec.bind_of_ok loadedTask, described.stack,
      ← Nat.cast_add, Exec.bind_of_ok run, Exec.run_pure]
  refine ⟨next, ?_, ⟨⟨value, hereNext, described⟩, ⟨task, taskHolds''⟩, holds.fits⟩,
    only.trans only'⟩
  rw [processMapMemory, Exec.bind_of_ok loaded, Exec.bind_of_ok mapped, if_neg (by decide),
    Exec.bind_of_ok stack, Exec.run_pure]

end Map

section SetUp

variable {region : KernelRegion} {live live' : List Allocation} {start kernel next : Kernel}

/-- An allocation of whole pages fits into the address space. -/
theorem blockFits_of_placed (inv : KernelInvariant region live kernel) {virt ptr size : Nat}
    (present : (kernel.objs ptr).isSome)
    (held : size = 0 ∨ (⟨ptr, size⟩ : Allocation) ∈ live)
    (inside : virt + pagingPageSize * blocksFor size ≤ 4294967296) : BlockFits virt ptr size where
  aligned := (inv.obj_placed present).1
  bound := by
    rcases held with rfl | member
    · exact (inv.obj_placed present).2
    · exact inv.below member
  inside := inside

/-- A completed allocation of the program. -/
theorem processSetUpProgram_completed {process : Nat}
    (extended : Extended region live live' start kernel fun ptr => ptr = process)
    (here : kernel.objs process = some (.process {})) {program : Option Nat}
    (inside : ∀ size ∈ program,
      peachosProgramVirtualAddress + pagingPageSize * blocksFor size ≤ 4294967296)
    (run : (processSetUpProgram process program).run kernel = .ok (true, next)) :
    ∃ (live'' : List Allocation) (block : Option Allocation) (value : Process),
      next.objs process = some (.process value) ∧
      value.filetype = (if block.isSome then processFiletypeBinary else processFiletypeElf) ∧
      value.ptr = (block.map Allocation.ptr).getD 0 ∧
      value.size = (block.map Allocation.size).getD 0 ∧
      BlockFits peachosProgramVirtualAddress value.ptr value.size ∧
      (∀ held ∈ programBlocks block, held ∈ live'') ∧
      Extended region live live'' start next fun ptr => ptr = process ∨
        ∃ held ∈ programBlocks block, ptr = held.ptr := by
  cases program with
  | none =>
      cases run
      refine ⟨live', none, {}, here, rfl, rfl, rfl, ⟨rfl, by decide, by decide⟩, nofun,
        extended.congr fun ptr => ?_⟩
      simp only [programBlocks, Option.toList_none, List.filter_nil, List.not_mem_nil, false_and,
        exists_false, or_false]
  | some size =>
      have fitsInside := inside size rfl
      have small : size ≤ 4294963200 := by
        have covers := size_le_blocksFor size
        unfold peachosHeapBlockSize at covers
        unfold peachosProgramVirtualAddress pagingPageSize at fitsInside
        omega
      obtain ⟨ptr, allocated, alloc, run₁⟩ := Exec.bind_eq_ok.mp run
      by_cases null : ptr = 0
      · rw [if_pos null] at run₁
        cases run₁
      · rw [if_neg null] at run₁
        obtain ⟨allocation, member, rfl⟩ := extended.held process rfl
        obtain ⟨live'', placed, blocks, extended'⟩ : ∃ live'',
            Placed region live' live'' kernel (.bytes (List.replicate size 0)) ptr allocated ∧
            (∀ held ∈ programBlocks (some ⟨ptr, size⟩), held ∈ live'') ∧
            Extended region live live'' start allocated fun other => other = allocation.ptr ∨
              ∃ held ∈ programBlocks (some ⟨ptr, size⟩), other = held.ptr := by
          rcases kmalloc_completed extended.invariant small alloc with
            ⟨refused, _⟩ | ⟨rfl, placed⟩ | ⟨positive, placed⟩
          · exact absurd refused null
          · have empty : programBlocks (some ⟨ptr, 0⟩) = [] := rfl
            rw [empty]
            refine ⟨live', placed, nofun, (extended.placedEmpty placed).congr fun other => ?_⟩
            simp only [List.not_mem_nil, false_and, exists_false, or_false]
          · have single : programBlocks (some ⟨ptr, size⟩) = [⟨ptr, size⟩] := by
              exact List.filter_cons_of_pos (decide_eq_true positive)
            rw [single]
            refine ⟨_, placed, fun held listed => ?_, (extended.placed placed).congr fun other => ?_⟩
            · rw [List.mem_singleton.mp listed]
              exact List.mem_cons_self
            · simp only [List.mem_singleton, exists_eq_left, or_comm]
        have kept : allocated.objs allocation.ptr = some (.process {}) :=
          (placed.kept allocation member).trans here
        obtain ⟨contents, value, found, typed, run₂⟩ := load_bind_eq_ok.mp run₁
        rw [kept] at found
        cases found
        cases typed
        obtain ⟨_, run₃⟩ := store_bind_eq_ok.mp run₂
        cases run₃
        refine ⟨live'', some ⟨ptr, size⟩, _, Kernel.setObj_objs_self .., rfl, rfl, rfl,
          blockFits_of_placed placed.invariant (by rw [placed.present]; rfl) ?_ fitsInside, blocks,
          extended'.setObj (.inl rfl) _⟩
        rcases Nat.eq_zero_or_pos size with empty | positive
        · exact .inl empty
        · exact .inr (blocks _ (List.mem_filter.mpr ⟨List.mem_cons_self, decide_eq_true positive⟩))

/-- A completed allocation of the stack and the task. -/
theorem processSetUpTask_completed {memories : List TaskMemory}
    (tasks : TaskState region live memories start) {owned : Nat → Prop}
    (extended : Extended region live live' start kernel owned) {process result : Nat}
    (own : owned process) {value : Process} (here : kernel.objs process = some (.process value))
    (run : (processSetUpTask process).run kernel = .ok (result, next)) (satisfied : result ≠ 0) :
    ∃ live'' stack memory, result = process ∧
      next.objs process = some (.process { value with stack := stack, task := memory.task }) ∧
      BlockFits peachosProgramVirtualStackAddressEnd stack peachosUserProgramStackSize ∧
      ⟨stack, peachosUserProgramStackSize⟩ ∈ live'' ∧
      (∃ task, TaskHolds memory task (identityPages taskPageFlags) next) ∧
      TaskState region live'' (memories ++ [memory]) next ∧ live' ⊆ live'' ∧
      (∀ allocation ∈ live, ¬ (allocation.ptr = stack ∨ owned allocation.ptr ∨
        memory.owns allocation.ptr)) ∧
      (∀ ptr, memory.owns ptr → ∃ allocation ∈ live'', allocation.ptr = ptr) ∧
      (∀ allocation ∈ live, (∀ value, start.objs allocation.ptr ≠ some (.task value)) →
        next.objs allocation.ptr = start.objs allocation.ptr) ∧
      ∀ other ∈ memories, ∀ value pages, TaskHolds other value pages start →
        ∃ value', TaskHolds other value' pages next := by
  obtain ⟨stack, stacked, alloc, run₁⟩ := Exec.bind_eq_ok.mp run
  obtain ⟨contents, found, processHere, typed, run₂⟩ := load_bind_eq_ok.mp run₁
  obtain ⟨_, run₃⟩ := store_bind_eq_ok.mp run₂
  rcases kmalloc_positive extended.invariant (by decide) (by decide) alloc with
    ⟨rfl, rfl⟩ | placed
  · rw [if_pos rfl] at run₃
    cases run₃
    exact absurd rfl satisfied
  rw [if_neg placed.notNull] at run₃
  obtain ⟨allocation, member, rfl⟩ := extended.held process own
  rw [placed.kept allocation member, here] at processHere
  cases processHere
  cases typed
  have extended₃ := (extended.placed placed).setObj (.inr own)
    (.process { value with stack := stack })
  have fits : BlockFits peachosProgramVirtualStackAddressEnd stack peachosUserProgramStackSize :=
    blockFits_of_placed placed.invariant (by rw [placed.present]; rfl)
      (.inr List.mem_cons_self) (by decide)
  obtain ⟨task, made, new, run₄⟩ := Exec.bind_eq_ok.mp run₃
  obtain ⟨live'', memory, rfl, taskMade⟩ := taskNew_spec (tasks.extended extended₃) new
  obtain ⟨contents, found, processHere, typed, run₅⟩ := load_bind_eq_ok.mp run₄
  obtain ⟨_, run₆⟩ := store_bind_eq_ok.mp run₅
  cases run₆
  have listed : allocation ∈ ⟨stack, peachosUserProgramStackSize⟩ :: live' :=
    List.mem_cons_of_mem _ member
  have processKept := taskMade.kept allocation listed fun task => by
    rw [Kernel.setObj_objs_self]
    nofun
  rw [Kernel.setObj_objs_self] at processKept
  have same := processKept
  rw [processHere] at same
  cases same
  cases typed
  obtain ⟨after, before, holds⟩ := taskMade.made
  refine ⟨live'', stack, memory, rfl, Kernel.setObj_objs_self .., fits,
    taskMade.grown List.mem_cons_self, ⟨_, holds.setProcess processKept _⟩,
    taskMade.state.setProcess processKept _, fun _ old => taskMade.grown
      (List.mem_cons_of_mem _ old), ?_, taskMade.held, ?_, ?_⟩
  · rintro other old (isStack | before | new)
    · exact placed.fresh other (extended.grown old) isStack
    · exact extended.fresh other old before
    · exact taskMade.fresh other (List.mem_cons_of_mem _ (extended.grown old)) new
  · intro other old notTask
    have apart : other.ptr ≠ allocation.ptr := fun equal =>
      extended.fresh other old (equal ▸ own)
    have kept := extended₃.kept other old
    rw [Kernel.setObj_objs_of_ne _ _ apart, taskMade.kept other (extended₃.grown old), kept]
    rw [kept]
    exact notTask
  · intro other old value pages there
    have still := there.of_kept fun ptr own => tasks.owned.kept extended₃ old own
    obtain ⟨after, before, last⟩ := taskMade.task other old value pages still
    exact ⟨_, last.setProcess processKept _⟩

end SetUp

end Peachos
