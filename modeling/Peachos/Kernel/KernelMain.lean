import Peachos.Fs.Mounting
import Peachos.Kernel.RoomRuns
import Peachos.Task.LoadedSpace

/-! # `kernel_main`

The kernel from `kheap_init` to its first task: its heap, the filesystems and the disk, a page
directory of its own, and one process with its task. For every disk whose root directory ends it
comes to run that task (`kernelMain_boots`). The tables of the processor that `kernel_main` sets up
as well are those of `kernelMainTables`.
-/

namespace Peachos

open CInt Exec

abbrev peachosHeapTableAddress : Nat := 0x00007E00

/-- The kernel before `kernel_main`, with its variables zero. -/
def powerOn (drive : Nat → UInt8) : Kernel where
  heap := ⟨⟨[]⟩, 0⟩
  drive := drive
  disk := { sectorSize := 0 }
  filesystems := List.replicate peachosMaxFilesystems none

/-- `kheap_init`, with the bytes of the memory in which the table of the heap lies. -/
def kheapInit (memory : Nat → UInt8) : K Unit := Exec.update fun kernel => { kernel with
  heap := (heapCreate kernel.heap peachosHeapAddress
    (u32 (peachosHeapAddress + peachosHeapSizeBytes))
    ⟨(List.range (peachosHeapSizeBytes / peachosHeapBlockSize)).map fun entry =>
      memory (peachosHeapTableAddress + entry)⟩).2 }

/-- `0:/blank.bin` -/
def blankBin : List UInt8 := [48, 58, 47, 98, 108, 97, 110, 107, 46, 98, 105, 110]

/-- `kernel_main` from `kheap_init` to `enable_paging`. -/
def kernelMainSetup (read : StreamRead) (memory : Nat → UInt8) : K Unit := do
  kheapInit memory
  mountDisk read
  let kernelChunk ← pagingNew4gb (pagingIsWriteable ||| pagingIsPresent ||| pagingAccessFromAll)
  Exec.update fun kernel => { kernel with kernelChunk := kernelChunk }
  pagingSwitch kernelChunk

/-- `kernel_main` from `kheap_init` on: the task that it runs. -/
def kernelMain (read : StreamRead) (memory : Nat → UInt8) : K Nat := do
  kernelMainSetup read memory
  let (res, _) ← processLoad read blankBin
  if res ≠ peachosAllOk then panic "process load failed\n"
  else taskRunFirstEverTask

/-- The heap of `kheap_init` is free, whatever the memory held before. -/
theorem kheapInit_run (memory : Nat → UInt8) (kernel : Kernel) :
    (kheapInit memory).run kernel =
      .ok ((), { kernel with heap := (freshKernel kernelHeapRegion).heap }) := by
  obtain ⟨table, named⟩ : ∃ table : HeapTable, table =
    ⟨(List.range (peachosHeapSizeBytes / peachosHeapBlockSize)).map fun entry =>
      memory (peachosHeapTableAddress + entry)⟩ := ⟨_, rfl⟩
  have total : table.total = peachosHeapSizeBytes / peachosHeapBlockSize := by
    rw [named, HeapTable.total, List.length_map, List.length_range]
  have valid : heapValidateTable peachosHeapAddress
      (u32 (peachosHeapAddress + peachosHeapSizeBytes)) table = 0 := by
    rw [heapValidateTable, total]
    decide
  rw [kheapInit, run_update, ← named, heapCreate, if_neg (by decide)]
  dsimp only
  rw [valid, if_neg (by decide), total]
  rfl

section Load

variable {region : KernelRegion} {live : List Allocation} {kernel : Kernel} {lower upper : Nat}

/-- **Room for a process**, wherever the other blocks are. -/
theorem processLoad_roomed (read : StreamRead) (filename : List UInt8)
    {memories : List TaskMemory} (state : TaskState region live memories kernel)
    (slots : kernel.processes.length = peachosMaxProcesses) {slot : Nat}
    (free : kernel.processes[slot]? = some 0) (room : kernel.heap.Room lower upper)
    (enough : lower + processLoadBlocks ≤ upper) :
    ∃ process next, (processLoad read filename).run kernel = .ok ((0, process), next) := by
  have inside := (List.getElem?_eq_some_iff.mp free).1
  rw [slots] at inside
  obtain ⟨index, search⟩ := processGetFreeSlotLoop_found free peachosMaxProcesses 0
    (Nat.zero_le _) (by rwa [Nat.zero_add])
  obtain ⟨_, found⟩ := processGetFreeSlotLoop_completed _ _ search
  obtain ⟨indexFree, indexInside⟩ : kernel.processes[index]? = some 0 ∧
      index < kernel.processes.length := by
    rcases found with negative | ⟨index', same, free', _⟩
    · unfold eistkn at negative
      omega
    · rw [Int.natCast_inj.mp same]
      exact ⟨free', (List.getElem?_eq_some_iff.mp free').1⟩
  have bound : ¬ ((index : Int) < 0 ∨ (index : Int) ≥ peachosMaxProcesses) := by
    rw [slots] at indexInside
    unfold peachosMaxProcesses at *
    omega
  have get : (processGet index).run kernel = .ok (0, kernel) := by
    rw [processGet, if_neg bound]
    exact Exec.demand_of_some indexFree
  unfold processLoadBlocks at enough
  obtain ⟨process, allocated, alloc₁, placed₁, room₁⟩ := kmalloc_room state.invariant room
    (show 1 ≤ sizeofProcess by decide) (by decide)
    (show lower + blocksFor sizeofProcess ≤ upper by
      rw [show blocksFor sizeofProcess = 3 by decide]
      omega) (.process {})
  have present : (allocated.objs process).isSome := by
    rw [placed₁.present]
    rfl
  obtain ⟨stack, stacked, alloc₂, placed₂, room₂⟩ := kmalloc_room
    (placed₁.invariant.setObj present (.process {})) room₁
    (show 1 ≤ peachosUserProgramStackSize by decide) (by decide)
    (show lower + blocksFor sizeofProcess + blocksFor peachosUserProgramStackSize ≤ upper by
      rw [show blocksFor sizeofProcess = 3 by decide,
        show blocksFor peachosUserProgramStackSize = 4 by decide]
      omega) (.bytes (List.replicate peachosUserProgramStackSize 0))
  rw [show blocksFor sizeofProcess = 3 by decide,
    show blocksFor peachosUserProgramStackSize = 4 by decide] at room₂
  obtain ⟨next, fill, _⟩ := @processFill_supplied _ _ _ read filename _ (roomSupply region upper) _
    state _ _ index 0 _ _ placed₁ alloc₂ placed₂
    ⟨lower + 3 + 4, by omega, placed₂.invariant, room₂⟩ indexInside
  refine ⟨process, next, ?_⟩
  rw [processLoad, processGetFreeSlot, Exec.bind_of_ok search, if_neg (by omega),
    Int.toNat_natCast, processLoadForSlot, Exec.bind_of_ok get, if_neg (not_not.mpr rfl), kzalloc,
    Exec.bind_of_ok alloc₁, if_neg placed₁.notNull, Exec.bind_of_ok fill]
  rfl

end Load

/-- The kernel has its own page directory, which maps every page to itself. -/
def KernelIdentity (live : List Allocation) (kernel : Kernel) : Prop :=
  ∃ tables : PageTables, tables.chunk = kernel.kernelChunk ∧
    (∀ ptr, tables.owns ptr → ∃ allocation ∈ live, allocation.ptr = ptr) ∧
    PageMap tables 7 (identityPages 7) kernel

/-- The state in which `kernel_main` loads its process. -/
structure SetUp (live : List Allocation) (kernel : Kernel) : Prop where
  noProcesses : NoProcesses kernelHeapRegion live kernel
  room : ∃ lower, lower + processLoadBlocks ≤ 25600 ∧ kernel.heap.Room lower 25600
  page : KernelIdentity live kernel

/-- The only process is in the first slot of the table, and its task runs with the registers of
`task_init`. -/
structure RunsFirst (live : List Allocation) (process task : Nat) (kernel : Kernel) : Prop where
  invariant : KernelInvariant kernelHeapRegion live kernel
  processes : kernel.processes = (List.replicate peachosMaxProcesses 0).set 0 process
  current : kernel.currentTask = task
  saved : SavedAs kernel task taskInitCpu
  page : ∃ tables : PageTables, tables.chunk = kernel.kernelChunk ∧
    PageMap tables 7 (identityPages 7) kernel

section Boot

variable {live : List Allocation} {kernel : Kernel}

/-- **The heap, the disk and the page directory of the kernel.** The root directory takes 512 blocks
at most. -/
theorem kernelMainSetup_runs (memory drive : Nat → UInt8) {entries : List (List UInt8)}
    (root : (bootHeader drive).signature = 0x29 →
      RootStored { header := bootHeader drive } drive entries) :
    ∃ live kernel, (kernelMainSetup diskstreamerRead memory).run (powerOn drive) =
      .ok ((), kernel) ∧ SetUp live kernel := by
  obtain ⟨heaped, started⟩ : ∃ heaped : Kernel, heaped = { powerOn drive with
    heap := (freshKernel kernelHeapRegion).heap } := ⟨_, rfl⟩
  have inv : KernelInvariant kernelHeapRegion [] heaped :=
    started ▸ ((freshKernel_invariant kernelHeapRegion).of_same rfl rfl)
  have room : heaped.heap.Room 0 25600 := started ▸ bootWithDisk_room []
  have sameDrive : heaped.drive = drive := by rw [started]; rfl
  have blocks : blocksFor (FatPrivate.rootSize { header := bootHeader drive }) ≤ 512 := by
    have entries := (FatHeader.decode_fields (Window.window drive 0 sizeofFatH)).rootDirEntries
    have size : FatPrivate.rootSize { header := bootHeader drive } =
      sizeofFatDirectoryItem * (bootHeader drive).rootDirEntries := rfl
    rw [size]
    unfold bootHeader blocksFor peachosHeapBlockSize sizeofFatDirectoryItem
    omega
  obtain ⟨live₁, mounted, mount, _, inv₁, room₁, globals₁⟩ :=
    mountDisk_runs inv room (sameDrive ▸ root) (by rw [sameDrive]; omega)
  rw [sameDrive] at room₁
  obtain ⟨chunk, _, paged, new, lower, enough, _, room₂⟩ :=
    @pagingNew4gb_supplied _ 7 _ (roomSupply kernelHeapRegion 25600) live₁ mounted
      processLoadBlocks ⟨_, by
        unfold processLoadBlocks taskBlocks pagingBlocks pagingTotalEntriesPerTable
        omega, inv₁, room₁⟩
  obtain ⟨live₂, tables, rfl, _, extended, map⟩ := pagingNew4gb_spec inv₁ new
  obtain ⟨last, done⟩ : ∃ last : Kernel, last = { paged with
    kernelChunk := tables.chunk, currentDirectory := tables.directory } := ⟨_, rfl⟩
  have globals : last = { heaped with
      heap := last.heap, objs := last.objs, disk := last.disk, filesystems := last.filesystems,
      fileDescriptors := last.fileDescriptors, kernelChunk := last.kernelChunk,
      currentDirectory := last.currentDirectory } := by
    have globals₂ := extended.globals
    rw [done, globals₂, globals₁]
  refine ⟨live₂, last, ?_, ⟨?_, ?_, ?_⟩, ⟨lower, enough, by rw [done]; exact room₂⟩, tables,
    by rw [done], extended.held, done ▸ map.of_kept fun _ _ => rfl⟩
  · have start : (kheapInit memory).run (powerOn drive) = .ok ((), heaped) := by
      rw [kheapInit_run, started]
    rw [kernelMainSetup, bind_of_ok start, bind_of_ok mount]
    have new' : (pagingNew4gb (pagingIsWriteable ||| pagingIsPresent |||
      pagingAccessFromAll)).run mounted = .ok (tables.chunk, paged) := new
    have chunkHere : ({ paged with kernelChunk := tables.chunk } : Kernel).objs tables.chunk =
      some (.chunk tables.directory) := map.chunk
    rw [bind_of_ok new', bind_of_ok (run_update _ _), pagingSwitch_of_obj chunkHere, done]
  · exact done ▸ extended.invariant.of_same rfl rfl
  · rw [globals, started]
    exact ⟨rfl, rfl, trivial, iff_of_true rfl rfl, fun more => absurd rfl more, nofun, nofun, .nil⟩
  · rw [globals, started]
    rfl

theorem KernelIdentity.paged (page : KernelIdentity live kernel) : KernelPaged live kernel := by
  obtain ⟨tables, chunk, held, map⟩ := page
  obtain ⟨allocation, member, same⟩ := held tables.chunk (.inl rfl)
  exact ⟨allocation, member, same.trans chunk, tables.directory, chunk ▸ map.chunk⟩

/-- **The first process.** -/
theorem SetUp.boots (setUp : SetUp live kernel) (read : StreamRead) (filename : List UInt8) :
    ∃ live' process task loaded first, (processLoad read filename).run kernel =
        .ok ((0, process), loaded) ∧
      taskRunFirstEverTask.run loaded = .ok (task, first) ∧
      RunsFirst live' process task first ∧ StaysConfined live' [process] first := by
  have fresh := setUp.noProcesses
  obtain ⟨lower, enough, room⟩ := setUp.room
  obtain ⟨tables, chunk, held, map⟩ := setUp.page
  have free : kernel.processes[0]? = some 0 := by
    rw [fresh.slots]
    rfl
  obtain ⟨process, loaded, load⟩ := processLoad_roomed read filename fresh.state.tasks
    (by rw [fresh.slots, List.length_replicate]) free room enough
  have loads := LoadRun.start.loaded load
  obtain ⟨live', records, same, noProgram, mapped⟩ := loads.mapped fresh setUp.page.paged
  obtain ⟨record, rfl, rfl⟩ := List.map_eq_singleton_iff.mp same.symm
  obtain ⟨_, other, sameProcess, done⟩ : ∃ live'' other,
      other.process = record.process ∧
        ProcessLoaded kernelHeapRegion live live'' [] kernel loaded other := by
    rcases processLoad_completed fresh.state load with ⟨negative, _⟩ |
      ⟨_, live'', other, same, done⟩
    · exact absurd negative (lt_irrefl 0)
    · exact ⟨live'', other, same, done⟩
  have slot : other.id = 0 := by
    by_contra positive
    exact done.least 0 (Nat.pos_of_ne_zero positive) free
  have inTable : ∀ record ∈ [other], record.id < peachosMaxProcesses := by
    intro record member
    rw [List.mem_singleton.mp member, slot]
    decide
  have head : loaded.taskHead = record.memory.task := mapped.tasks.list.head
  obtain ⟨first, run⟩ := taskRunFirstEverTask_runs mapped.tasks (List.cons_ne_nil _ _)
  rw [head] at run
  have serving := mapped.serving done.state (congrArg (fun process => [process]) sameProcess.symm)
    inTable run
  have confined := serving.staysConfined noProgram
  obtain ⟨_, _, directory, rfl⟩ := taskRunFirstEverTask_completed run
  obtain ⟨value, here, registers⟩ := mapped.saved record (List.mem_singleton_self _)
  have kept : ∀ ptr, tables.owns ptr → loaded.objs ptr = kernel.objs ptr := by
    intro ptr own
    obtain ⟨allocation, member, rfl⟩ := held ptr own
    exact done.kept allocation member (map.not_task own)
  refine ⟨live', record.process, record.memory.task, loaded, _, load, run,
    ⟨serving.confined.tasks.invariant, ?_, head, ⟨value, here, registers⟩, tables,
      chunk.trans done.chunk.symm, map.of_kept kept⟩, confined⟩
  change loaded.processes = _
  rw [done.stored, slot, sameProcess, fresh.slots]

/-- **The boot.** Whatever the memory held before, and for every disk whose root directory ends, be
it mounted or not, `kernel_main` comes to run the task of its process, and from then on every
`UserRun` stays confined: the process has no program, it can write to its stack only, and every system
call is served, and every interrupt that enters `interrupt_handler`. -/
theorem kernelMain_boots (memory drive : Nat → UInt8) {entries : List (List UInt8)}
    (root : (bootHeader drive).signature = 0x29 →
      RootStored { header := bootHeader drive } drive entries) :
    ∃ task first process live,
      (kernelMain diskstreamerRead memory).run (powerOn drive) = .ok (task, first) ∧
      RunsFirst live process task first ∧ StaysConfined live [process] first := by
  obtain ⟨_, kernel, start, setUp⟩ := kernelMainSetup_runs memory drive root
  obtain ⟨live, process, task, loaded, first, load, run, runs, confined⟩ :=
    setUp.boots diskstreamerRead blankBin
  refine ⟨task, first, process, live, ?_, runs, confined⟩
  rw [kernelMain, bind_of_ok start, bind_of_ok load]
  exact run

end Boot

/-- The disk with the directories `E` and `D` and the file `F`, and the memory filled with ones. -/
theorem kernelMain_boots_tableKernel : ∃ task first process live,
    (kernelMain diskstreamerRead fun _ => 1).run (powerOn tableKernel.drive) = .ok (task, first) ∧
    RunsFirst live process task first ∧ StackOnly first process ∧ ServesTraps first := by
  obtain ⟨task, first, process, live, run, runs, confined⟩ :=
    kernelMain_boots (fun _ => 1) tableKernel.drive fun _ => tableKernel_root
  obtain ⟨_, only, serves, _⟩ := confined _ _ .start
  exact ⟨task, first, process, live, run, runs, only _ (List.mem_singleton_self _), serves⟩

end Peachos
