import Peachos.Memory.Mmu
import Peachos.Task.ProcessMemory

/-! # Isolation of processes

Any number of processes is set up and mapped in any order. The user mode of each of them then
reaches its program and its stack where they belong, every other page is mapped to itself
without the right to write, and two processes write to different frames (`setUp_isolates`).
-/

namespace Peachos

open CInt

/-- The processes that were set up, and those of them whose memory was mapped. -/
structure SetUpState (region : KernelRegion) (live : List Allocation)
    (records : List ProcessMemory) (mapped : List Nat) (kernel : Kernel) : Prop where
  tasks : TaskState region live (records.map ProcessMemory.memory) kernel
  owned : Owned ProcessMemory.owns live records
  holds : ∀ record ∈ records, ProcessHolds record
    (if record.process ∈ mapped then record.mappedPages else identityPages taskPageFlags) kernel
  blocks : ∀ record ∈ records, ∀ block ∈ record.blocks, block ∈ live
  mapped : ∀ process ∈ mapped, ∃ record ∈ records, record.process = process

section Steps

variable {region : KernelRegion} {live : List Allocation} {records : List ProcessMemory}
  {mapped : List Nat} {kernel next : Kernel}

/-- A process of the state is a live object. -/
theorem SetUpState.process_live (state : SetUpState region live records mapped kernel)
    {record : ProcessMemory} (member : record ∈ records) :
    ∃ allocation ∈ live, allocation.ptr = record.process :=
  state.owned.held record member _ (.inl rfl)

/-- **Setting up a process.** -/
theorem processSetUp_spec (state : SetUpState region live records mapped kernel)
    {program : Option Nat} (inside : ∀ size ∈ program,
      peachosProgramVirtualAddress + pagingPageSize * blocksFor size ≤ 4294967296)
    {process : Nat} (run : (processSetUp program).run kernel = .ok (process, next))
    (satisfied : process ≠ 0) :
    ∃ live' record, record.process = process ∧
      SetUpState region live' (records ++ [record]) mapped next := by
  obtain ⟨ptr, allocated, alloc, run₁⟩ := Exec.bind_eq_ok.mp run
  rcases kmalloc_positive state.tasks.invariant (by decide) (by decide) alloc with
    ⟨rfl, rfl⟩ | placed
  · rw [if_pos rfl] at run₁
    cases run₁
    exact absurd rfl satisfied
  rw [if_neg placed.notNull] at run₁
  obtain ⟨_, run₂⟩ := store_bind_eq_ok.mp run₁
  obtain ⟨held, loaded, setUp, run₃⟩ := Exec.bind_eq_ok.mp run₂
  cases held with
  | false =>
      rw [if_neg (by decide)] at run₃
      cases run₃
      exact absurd rfl satisfied
  | true =>
  rw [if_pos rfl] at run₃
  obtain ⟨live₁, block, value, here, filetype, ptrHere, sizeHere, fits, blocks, extended⟩ :=
    processSetUpProgram_completed ((((Extended.refl state.tasks.invariant).placed placed).setObj
      (.inl rfl) (.process {})).congr fun other => iff_of_eq (or_false _))
      (Kernel.setObj_objs_self ..) inside setUp
  obtain ⟨live₂, stack, memory, rfl, processHere, stackFits, stackLive, holds, tasks, grown, fresh,
    held, kept, task⟩ := processSetUpTask_completed state.tasks extended (.inl rfl) here run₃
      satisfied
  have new : ∀ allocation ∈ live,
      ¬ (⟨process, block, stack, memory⟩ : ProcessMemory).owns allocation.ptr := by
    rintro allocation member (same | ⟨other, listed, same⟩ | own)
    · exact fresh allocation member (.inr (.inl (.inl same)))
    · rcases List.mem_cons.mp listed with rfl | program
      · exact fresh allocation member (.inl same)
      · exact fresh allocation member (.inr (.inl (.inr ⟨other, program, same⟩)))
    · exact fresh allocation member (.inr (.inr own))
  have taken : ∀ block' ∈ (⟨process, block, stack, memory⟩ : ProcessMemory).blocks,
      block' ∈ live₂ := by
    intro other listed
    rcases List.mem_cons.mp listed with rfl | program
    · exact stackLive
    · exact grown (blocks other program)
  have all : live ⊆ live₂ := List.Subset.trans extended.grown grown
  refine ⟨live₂, ⟨process, block, stack, memory⟩, rfl, ?_, (state.owned.add all new ?_).perm
    (List.perm_append_singleton _ records).symm, ?_, ?_, ?_⟩
  · rw [List.map_append, List.map_singleton]
    exact tasks
  · rintro ptr (rfl | ⟨other, listed, rfl⟩ | own)
    · obtain ⟨allocation, member, same⟩ := extended.held ptr (.inl rfl)
      exact ⟨allocation, grown member, same⟩
    · exact ⟨other, taken other listed, rfl⟩
    · exact held ptr own
  · intro record member
    rcases List.mem_append.mp member with old | last
    · obtain ⟨process', task', fits'⟩ := state.holds record old
      obtain ⟨value', there, described⟩ := process'
      obtain ⟨value'', there'⟩ := task'
      obtain ⟨allocation, present, same⟩ := state.process_live old
      refine ⟨⟨value', ?_, described⟩, task _ (List.mem_map_of_mem old) _ _ there', fits'⟩
      rw [← same, kept allocation present, same, there]
      rw [same, there]
      nofun
    · rw [List.mem_singleton] at last
      subst last
      rw [if_neg]
      · exact ⟨⟨_, processHere, filetype, ptrHere, sizeHere, rfl, rfl⟩, holds,
          by rwa [ptrHere, sizeHere] at fits, stackFits⟩
      · intro listed
        obtain ⟨other, old, same⟩ := state.mapped _ listed
        obtain ⟨allocation, present, here⟩ := state.process_live old
        exact new allocation present (.inl (here.trans same))
  · intro record member other listed
    rcases List.mem_append.mp member with old | last
    · exact all (state.blocks record old other listed)
    · rw [List.mem_singleton.mp last] at listed
      exact taken other listed
  · intro other listed
    obtain ⟨record, old, same⟩ := state.mapped other listed
    exact ⟨record, List.mem_append_left _ old, same⟩

/-- **Mapping a process.** -/
theorem processMapMemory_state (state : SetUpState region live records mapped kernel)
    {record : ProcessMemory} (member : record ∈ records) (unmapped : record.process ∉ mapped) :
    ∃ next, (processMapMemory record.process).run kernel = .ok (0, next) ∧
      SetUpState region live records (record.process :: mapped) next := by
  have holds := state.holds record member
  rw [if_neg unmapped] at holds
  obtain ⟨next, run, holds', only⟩ := processMapMemory_spec holds
  obtain ⟨task, taskHolds⟩ := holds'.task
  have kept : ∀ other ∈ records, other ≠ record → ∀ ptr, other.owns ptr →
      next.objs ptr = kernel.objs ptr := fun other listed different ptr own =>
    only.kept ptr fun own' =>
      state.owned.not_owns listed member different own (.inr (.inr (.inr own')))
  refine ⟨next, run, state.tasks.writeTables (List.mem_map_of_mem member) taskHolds only,
    state.owned, ?_, state.blocks, ?_⟩
  · intro other listed
    by_cases same : other = record
    · subst same
      rw [if_pos List.mem_cons_self]
      exact holds'
    · have different : other.process ≠ record.process := fun equal =>
        state.owned.not_owns listed member same (.inl rfl) (.inl equal)
      obtain ⟨⟨value, here, described⟩, ⟨task', there⟩, fits⟩ := state.holds other listed
      have mappedSame : (other.process ∈ record.process :: mapped) ↔ other.process ∈ mapped :=
        List.mem_cons.trans (or_iff_right different)
      simp only [mappedSame]
      exact ⟨⟨value, by rw [kept other listed same _ (.inl rfl), here], described⟩,
        ⟨task', there.of_kept fun ptr own => kept other listed same ptr (.inr (.inr own))⟩, fits⟩
  · intro process listed
    rcases List.mem_cons.mp listed with rfl | old
    · exact ⟨record, member, rfl⟩
    · exact state.mapped process old

end Steps

/-- The walk of the processor for the user mode of a process, with the page directory of its
task in `cr3`. -/
def userWalk (process virt : Nat) : K (Option Access) := do
  let value ← load Obj.process? process
  let task ← load Obj.task? value.task
  let directory ← load Obj.chunk? task.pageDirectory
  mmuWalk directory virt

/-- The process can write to the frame from user mode. -/
def UserWrites (kernel : Kernel) (process frame : Nat) : Prop :=
  ∃ virt < 4294967296, ∃ access, (userWalk process virt).run kernel = .ok (some access, kernel) ∧
    access.user = true ∧ access.writeable = true ∧ access.address / pagingPageSize = frame

/-- The page holds a byte of the program or of the stack of the process. -/
def Process.mapsPage (value : Process) (page : Nat) : Prop :=
  ProcessMemory.programPage ≤ page ∧ page < ProcessMemory.programPage + blocksFor value.size ∨
    ProcessMemory.stackPage ≤ page ∧ page < ProcessMemory.stackPage + ProcessMemory.stackPages

/-- The stack and the program of the process. -/
def Process.blocks (value : Process) : List Allocation :=
  ⟨value.stack, peachosUserProgramStackSize⟩ :: programBlocks (some ⟨value.ptr, value.size⟩)

/-- The frame lies in the allocation. -/
def Allocation.holdsFrame (block : Allocation) (frame : Nat) : Prop :=
  block.ptr ≤ frame * pagingPageSize ∧
    (frame + 1) * pagingPageSize ≤ block.ptr + pagingPageSize * blocksFor block.size

/-- What the user mode of a process reaches. -/
structure MapsOwn (live : List Allocation) (kernel : Kernel) (process : Nat) (value : Process) :
    Prop where
  program : ∀ i < value.size, (userWalk process (peachosProgramVirtualAddress + i)).run kernel =
    .ok (some { address := value.ptr + i, user := true, writeable := true }, kernel)
  stack : ∀ i < peachosUserProgramStackSize,
    (userWalk process (peachosProgramVirtualStackAddressEnd + i)).run kernel =
      .ok (some { address := value.stack + i, user := true, writeable := true }, kernel)
  other : ∀ virt < 4294967296, ¬ value.mapsPage (virt / pagingPageSize) →
    (userWalk process virt).run kernel =
      .ok (some { address := virt, user := true, writeable := false }, kernel)
  frames : ∀ frame, UserWrites kernel process frame →
    ∃ block ∈ value.blocks, block.holdsFrame frame
  live : ∀ block ∈ value.blocks, block ∈ live

section Walk

variable {record : ProcessMemory} {kernel : Kernel}

theorem Describes.blocks {value : Process} (described : Describes record value) :
    value.blocks = record.blocks := by
  rw [Process.blocks, ProcessMemory.blocks, described.ptr, described.size, described.stack]
  unfold ProcessMemory.ptr ProcessMemory.size
  cases record.program <;> rfl

/-- The walk for a process through the pages of its task. -/
theorem userWalk_run {pages : Nat → Nat} (holds : ProcessHolds record pages kernel)
    {virt frame access : Nat} (word : virt < 4294967296)
    (page : pages (virt / pagingPageSize) = frame * pagingPageSize ||| access)
    (bounded : frame < 1048576) (small : access < pagingPageSize)
    (mapped : entryHas access pagingIsPresent = true) :
    (userWalk record.process virt).run kernel = .ok (some {
      address := frame * pagingPageSize + virt % pagingPageSize
      user := entryHas access pagingAccessFromAll
      writeable := entryHas access pagingIsWriteable }, kernel) := by
  obtain ⟨⟨value, here, described⟩, ⟨task, taskHolds⟩, _⟩ := holds
  have loadedProcess : (load Obj.process? record.process).run kernel = .ok (value, kernel) :=
    load_of_obj here rfl
  have loadedTask : (load Obj.task? value.task).run kernel = .ok (task, kernel) := by
    rw [described.task]
    exact load_of_obj taskHolds.task rfl
  have loadedChunk : (load Obj.chunk? task.pageDirectory).run kernel =
      .ok (record.memory.tables.directory, kernel) := by
    rw [taskHolds.pageDirectory]
    exact load_of_obj taskHolds.map.chunk rfl
  rw [userWalk, Exec.bind_of_ok loadedProcess, Exec.bind_of_ok loadedTask,
    Exec.bind_of_ok loadedChunk]
  exact mmuWalk_run taskHolds.map taskPageFlags_small (by decide) (by decide) (by decide) word
    page (Nat.mul_mod_left ..) (by unfold pagingPageSize; omega) small mapped

/-- The three kinds of pages of a mapped process. -/
theorem mappedPages_cases (record : ProcessMemory) (page : Nat) :
    (∃ i < ProcessMemory.stackPages, page = ProcessMemory.stackPage + i ∧
      record.mappedPages page =
        (record.stack / pagingPageSize + i) * pagingPageSize ||| userPageFlags) ∨
    (∃ i < blocksFor record.size, page = ProcessMemory.programPage + i ∧
      record.mappedPages page =
        (record.ptr / pagingPageSize + i) * pagingPageSize ||| userPageFlags) ∨
    (¬ (ProcessMemory.programPage ≤ page ∧
        page < ProcessMemory.programPage + blocksFor record.size ∨
      ProcessMemory.stackPage ≤ page ∧
        page < ProcessMemory.stackPage + ProcessMemory.stackPages) ∧
      record.mappedPages page = page * pagingPageSize ||| taskPageFlags) := by
  unfold ProcessMemory.mappedPages
  by_cases stack : ProcessMemory.stackPage ≤ page ∧
      page < ProcessMemory.stackPage + ProcessMemory.stackPages
  · refine .inl ⟨page - ProcessMemory.stackPage, by omega, by omega, ?_⟩
    rw [mapPages, if_pos stack]
  by_cases program : ProcessMemory.programPage ≤ page ∧
      page < ProcessMemory.programPage + blocksFor record.size
  · refine .inr (.inl ⟨page - ProcessMemory.programPage, by omega, by omega, ?_⟩)
    rw [mapPages, if_neg stack, mapPages, if_pos program]
  · refine .inr (.inr ⟨not_or.mpr ⟨program, stack⟩, ?_⟩)
    rw [mapPages, if_neg stack, mapPages, if_neg program, identityPages]

theorem programPage_eq : ProcessMemory.programPage = 1024 := by decide

theorem stackPage_eq : ProcessMemory.stackPage = 1019 := by decide

theorem stackPages_eq : ProcessMemory.stackPages = 4 := by decide

/-- What the user mode of a mapped process reaches at an address. -/
theorem userWalk_mapped (holds : ProcessHolds record record.mappedPages kernel) {virt : Nat}
    (word : virt < 4294967296) :
    (∃ i < peachosUserProgramStackSize, virt = peachosProgramVirtualStackAddressEnd + i ∧
      (userWalk record.process virt).run kernel =
        .ok (some { address := record.stack + i, user := true, writeable := true }, kernel)) ∨
    (∃ i < pagingPageSize * blocksFor record.size, virt = peachosProgramVirtualAddress + i ∧
      (userWalk record.process virt).run kernel =
        .ok (some { address := record.ptr + i, user := true, writeable := true }, kernel)) ∨
    (¬ (ProcessMemory.programPage ≤ virt / pagingPageSize ∧
        virt / pagingPageSize < ProcessMemory.programPage + blocksFor record.size ∨
      ProcessMemory.stackPage ≤ virt / pagingPageSize ∧
        virt / pagingPageSize < ProcessMemory.stackPage + ProcessMemory.stackPages) ∧
      (userWalk record.process virt).run kernel =
        .ok (some { address := virt, user := true, writeable := false }, kernel)) := by
  have stackFits := holds.fits.stack.bound
  have stackAligned := holds.fits.stack.aligned
  have programFits := holds.fits.program.bound
  have programAligned := holds.fits.program.aligned
  have stackBlocks : blocksFor peachosUserProgramStackSize = 4 := by decide
  rw [stackBlocks] at stackFits
  have program := programPage_eq
  have stack := stackPage_eq
  have count := stackPages_eq
  rcases mappedPages_cases record (virt / pagingPageSize) with
    ⟨i, inside, page, entry⟩ | ⟨i, inside, page, entry⟩ | ⟨outside, entry⟩
  · have run := userWalk_run holds word entry (by unfold pagingPageSize at *; omega) (by decide)
      (by decide)
    refine .inl ⟨i * pagingPageSize + virt % pagingPageSize, ?_, ?_, ?_⟩
    · unfold peachosUserProgramStackSize pagingPageSize
      omega
    · unfold peachosProgramVirtualStackAddressEnd
      unfold pagingPageSize at *
      omega
    · rw [run, show (record.stack / pagingPageSize + i) * pagingPageSize + virt % pagingPageSize =
        record.stack + (i * pagingPageSize + virt % pagingPageSize) by
          unfold pagingPageSize at *; omega]
      rfl
  · have run := userWalk_run holds word entry (by unfold pagingPageSize at *; omega) (by decide)
      (by decide)
    refine .inr (.inl ⟨i * pagingPageSize + virt % pagingPageSize, ?_, ?_, ?_⟩)
    · unfold pagingPageSize
      omega
    · unfold peachosProgramVirtualAddress
      unfold pagingPageSize at *
      omega
    · rw [run, show (record.ptr / pagingPageSize + i) * pagingPageSize + virt % pagingPageSize =
        record.ptr + (i * pagingPageSize + virt % pagingPageSize) by
          unfold pagingPageSize at *; omega]
      rfl
  · have run := userWalk_run holds word entry (by unfold pagingPageSize; omega) (by decide)
      (by decide)
    refine .inr (.inr ⟨outside, ?_⟩)
    rw [run, show virt / pagingPageSize * pagingPageSize + virt % pagingPageSize = virt by
      unfold pagingPageSize; omega]
    rfl

/-- The mapped memory of a process is its own. -/
theorem mapsOwn_of_holds (holds : ProcessHolds record record.mappedPages kernel)
    {live : List Allocation} (blocks : ∀ block ∈ record.blocks, block ∈ live) :
    ∃ value, kernel.objs record.process = some (.process value) ∧
      value.blocks = record.blocks ∧ MapsOwn live kernel record.process value := by
  obtain ⟨value, here, described⟩ := holds.process
  have program := programPage_eq
  have stack := stackPage_eq
  have count := stackPages_eq
  have covers := size_le_blocksFor record.size
  refine ⟨value, here, described.blocks, ?_, ?_, ?_, ?_, by rwa [described.blocks]⟩
  · intro i inside
    rw [described.size] at inside
    have bound := holds.fits.program.inside
    rw [described.ptr]
    rcases userWalk_mapped holds (show peachosProgramVirtualAddress + i < 4294967296 by
        unfold peachosHeapBlockSize at covers
        unfold pagingPageSize at bound
        omega) with
      ⟨j, small, same, _⟩ | ⟨j, _, same, run⟩ | ⟨outside, _⟩
    · unfold peachosProgramVirtualAddress peachosProgramVirtualStackAddressEnd at same
      unfold peachosUserProgramStackSize at small
      omega
    · obtain rfl := Nat.add_left_cancel same
      exact run
    · refine absurd (.inl ?_) outside
      unfold peachosProgramVirtualAddress pagingPageSize
      unfold peachosHeapBlockSize at covers
      omega
  · intro i inside
    unfold peachosUserProgramStackSize at inside
    rw [described.stack]
    rcases userWalk_mapped holds (show peachosProgramVirtualStackAddressEnd + i < 4294967296 by
        unfold peachosProgramVirtualStackAddressEnd
        omega) with
      ⟨j, _, same, run⟩ | ⟨j, _, same, _⟩ | ⟨outside, _⟩
    · obtain rfl := Nat.add_left_cancel same
      exact run
    · unfold peachosProgramVirtualAddress peachosProgramVirtualStackAddressEnd at same
      omega
    · refine absurd (.inr ?_) outside
      unfold peachosProgramVirtualStackAddressEnd pagingPageSize
      omega
  · intro virt word unmapped
    rw [Process.mapsPage, described.size, not_or] at unmapped
    rcases userWalk_mapped holds word with
      ⟨i, inside, rfl, _⟩ | ⟨i, inside, rfl, _⟩ | ⟨_, run⟩
    · refine absurd ?_ unmapped.2
      unfold peachosProgramVirtualStackAddressEnd pagingPageSize
      unfold peachosUserProgramStackSize at inside
      omega
    · refine absurd ?_ unmapped.1
      unfold peachosProgramVirtualAddress
      unfold pagingPageSize at *
      omega
    · exact run
  · rintro frame ⟨virt, word, access, run, _, writeable, rfl⟩
    rw [described.blocks]
    rcases userWalk_mapped holds word with
      ⟨i, inside, _, found⟩ | ⟨i, inside, _, found⟩ | ⟨_, found⟩
    · rw [run] at found
      cases found
      refine ⟨_, List.mem_cons_self, ?_⟩
      have aligned := holds.fits.stack.aligned
      have stackBlocks : blocksFor peachosUserProgramStackSize = 4 := by decide
      unfold Allocation.holdsFrame
      dsimp only
      rw [stackBlocks]
      unfold peachosUserProgramStackSize at inside
      unfold pagingPageSize at *
      omega
    · rw [run] at found
      cases found
      have aligned := holds.fits.program.aligned
      have positive : 0 < record.size := by
        rcases Nat.eq_zero_or_pos record.size with empty | positive
        · rw [empty, show blocksFor 0 = 0 from rfl, Nat.mul_zero] at inside
          exact absurd inside (Nat.not_lt_zero i)
        · exact positive
      refine ⟨⟨record.ptr, record.size⟩, ?_, ?_⟩
      · rw [← described.blocks, Process.blocks, described.ptr, described.size]
        exact List.mem_cons_of_mem _
          (List.mem_filter.mpr ⟨List.mem_cons_self, decide_eq_true positive⟩)
      · unfold Allocation.holdsFrame
        dsimp only
        unfold pagingPageSize at *
        omega
    · rw [run] at found
      cases found
      cases writeable

end Walk

/-- Runs that set up processes and map their memory in any order. Every request for memory is
satisfied, and the program of each process fits into the address space from its start on. -/
inductive SetUpRun (start : Kernel) : (processes mapped : List Nat) → Kernel → Prop
  | start : SetUpRun start [] [] start
  | setUp {processes mapped : List Nat} {kernel next : Kernel} {program : Option Nat}
      {process : Nat} (before : SetUpRun start processes mapped kernel)
      (inside : ∀ size ∈ program,
        peachosProgramVirtualAddress + pagingPageSize * blocksFor size ≤ 4294967296)
      (run : (processSetUp program).run kernel = .ok (process, next)) (satisfied : process ≠ 0) :
      SetUpRun start (processes ++ [process]) mapped next
  | map {processes mapped : List Nat} {kernel next : Kernel} {process : Nat} {res : Int}
      (before : SetUpRun start processes mapped kernel) (member : process ∈ processes)
      (unmapped : process ∉ mapped)
      (run : (processMapMemory process).run kernel = .ok (res, next)) :
      SetUpRun start processes (process :: mapped) next

section Runs

variable {region : KernelRegion} {live : List Allocation} {start kernel : Kernel}
  {processes mapped : List Nat}

/-- The processes of a run with the objects they own. -/
theorem SetUpRun.state (inv : KernelInvariant region live start) (empty : TaskList [] start)
    (run : SetUpRun start processes mapped kernel) :
    ∃ live' records, processes = records.map ProcessMemory.process ∧
      SetUpState region live' records mapped kernel := by
  induction run with
  | start => exact ⟨live, [], rfl, ⟨inv, .nil, nofun, empty⟩, .nil, nofun, nofun, nofun⟩
  | setUp before inside run satisfied ih =>
      obtain ⟨live', records, rfl, state⟩ := ih
      obtain ⟨live'', record, rfl, state'⟩ := processSetUp_spec state inside run satisfied
      exact ⟨live'', records ++ [record], by rw [List.map_append, List.map_singleton], state'⟩
  | map before member unmapped run ih =>
      obtain ⟨live', records, rfl, state⟩ := ih
      obtain ⟨record, listed, rfl⟩ := List.mem_map.mp member
      obtain ⟨next, run', state'⟩ := processMapMemory_state state listed unmapped
      rw [run] at run'
      cases run'
      exact ⟨live', records, rfl, state'⟩

/-- Live blocks at different addresses hold different frames. -/
theorem KernelInvariant.frames_apart (inv : KernelInvariant region live kernel)
    {first second : Allocation} (member : first ∈ live) (other : second ∈ live)
    (different : first.ptr ≠ second.ptr) {frame : Nat} (held : first.holdsFrame frame) :
    ¬ second.holdsFrame frame := by
  have symmetric : Std.Symm fun first second : Allocation =>
      first.ptr + peachosHeapBlockSize * blocksFor first.size ≤ second.ptr ∨
        second.ptr + peachosHeapBlockSize * blocksFor second.size ≤ first.ptr :=
    ⟨fun _ _ => Or.symm⟩
  have apart := inv.heap.disjoint.forall member other fun same => different (same ▸ rfl)
  unfold Allocation.holdsFrame at *
  unfold peachosHeapBlockSize pagingPageSize at *
  omega

/-- **Isolation.** In every run that sets up processes and maps their memory in any order, a
mapped process reaches its program and its stack, every other page is itself and not writeable,
the frames it writes to are its own, and no two mapped processes write to the same frame. A
process that is not mapped yet can be. -/
theorem setUp_isolates (inv : KernelInvariant region live start) (empty : TaskList [] start)
    (run : SetUpRun start processes mapped kernel) :
    ∃ live', KernelInvariant region live' kernel ∧
      (∀ process ∈ processes, process ∈ mapped ∨
        ∃ next, (processMapMemory process).run kernel = .ok (0, next)) ∧
      (∀ process ∈ mapped, ∃ value, kernel.objs process = some (.process value) ∧
        MapsOwn live' kernel process value) ∧
      ∀ first ∈ mapped, ∀ second ∈ mapped, first ≠ second →
        ∀ frame, UserWrites kernel first frame → ¬ UserWrites kernel second frame := by
  obtain ⟨live', records, rfl, state⟩ := run.state inv empty
  have own : ∀ process ∈ mapped, ∃ record ∈ records, record.process = process ∧
      ∃ value, kernel.objs process = some (.process value) ∧ value.blocks = record.blocks ∧
        MapsOwn live' kernel process value := by
    intro process listed
    obtain ⟨record, member, rfl⟩ := state.mapped process listed
    have holds := state.holds record member
    rw [if_pos listed] at holds
    exact ⟨record, member, rfl, mapsOwn_of_holds holds (state.blocks record member)⟩
  refine ⟨live', state.tasks.invariant, ?_, ?_, ?_⟩
  · intro process listed
    obtain ⟨record, member, rfl⟩ := List.mem_map.mp listed
    by_cases done : record.process ∈ mapped
    · exact .inl done
    · obtain ⟨next, run', _⟩ := processMapMemory_state state member done
      exact .inr ⟨next, run'⟩
  · intro process listed
    obtain ⟨_, _, _, value, here, _, maps⟩ := own process listed
    exact ⟨value, here, maps⟩
  · intro first firstListed second secondListed different frame writes writes'
    obtain ⟨record, member, rfl, value, _, blocks, maps⟩ := own first firstListed
    obtain ⟨record', member', rfl, value', _, blocks', maps'⟩ := own second secondListed
    obtain ⟨block, taken, held⟩ := maps.frames frame writes
    obtain ⟨block', taken', held'⟩ := maps'.frames frame writes'
    have apart : block.ptr ≠ block'.ptr := by
      rw [blocks] at taken
      rw [blocks'] at taken'
      exact fun same => state.owned.not_owns member member' (fun equal => different (equal ▸ rfl))
        (.inr (.inl ⟨block, taken, rfl⟩)) (.inr (.inl ⟨block', taken', same⟩))
    exact state.tasks.invariant.frames_apart (maps.live block taken) (maps'.live block' taken')
      apart held held'

end Runs

section Progress

variable {region : KernelRegion} {live : List Allocation} {records : List ProcessMemory}
  {mapped : List Nat} {kernel : Kernel} {used : Nat}

/-- **Room for a process.** -/
theorem processSetUp_packed (state : SetUpState region live records mapped kernel)
    (packed : Packed region live kernel used) {size blocks : Nat} (positive : 1 ≤ size)
    (small : size ≤ 4294963200) (needs : blocksFor size = blocks)
    (room : (used + 3 + blocks + 4 + taskBlocks) * peachosHeapBlockSize ≤ region.bytes) :
    ∃ process next, (processSetUp (some size)).run kernel = .ok (process, next) ∧ process ≠ 0 ∧
      ∀ block < next.heap.table.total,
        next.heap.isFree block = true ↔ used + 3 + blocks + 4 + taskBlocks ≤ block := by
  have room₁ : (used + 3) * peachosHeapBlockSize ≤ region.bytes :=
    (Nat.mul_le_mul_right _ (by omega)).trans room
  have room₂ : (used + 3 + blocks) * peachosHeapBlockSize ≤ region.bytes :=
    (Nat.mul_le_mul_right _ (by omega)).trans room
  have room₃ : (used + 3 + blocks + 4) * peachosHeapBlockSize ≤ region.bytes :=
    (Nat.mul_le_mul_right _ (by omega)).trans room
  obtain ⟨process, k₁, _, alloc₁, packed₁, placed₁⟩ := kmalloc_packed packed
    (show 1 ≤ sizeofProcess by decide) (by decide) (show blocksFor sizeofProcess = 3 by decide)
    room₁ (.process {})
  have live₁ : (k₁.objs process).isSome := by
    rw [placed₁.present]
    rfl
  have writes : ∀ (kernel : Kernel) (contents : Obj), (kernel.objs process).isSome →
      WritesOnly (fun _ => True) kernel (kernel.setObj process (some contents)) :=
    fun kernel contents present => .setObj trivial present contents
  have init := packed₁.of_writes (writes k₁ (.process {}) live₁)
  have extended₁ := ((Extended.refl packed.invariant).placed placed₁).setObj (.inl rfl)
    (.process {})
  obtain ⟨ptr, k₂, _, alloc₂, packed₂, placed₂⟩ := kmalloc_packed init positive small needs room₂
    (.bytes (List.replicate size 0))
  have here₂ : k₂.objs process = some (.process {}) :=
    (placed₂.kept _ List.mem_cons_self).trans (Kernel.setObj_objs_self ..)
  have live₂ : (k₂.objs process).isSome := by
    rw [here₂]
    rfl
  have loaded₂ : (load Obj.process? process).run k₂ = .ok (_, k₂) := load_of_obj here₂ rfl
  have program := packed₂.of_writes (writes k₂ (.process { ({} : Process) with
    filetype := processFiletypeBinary, ptr := ptr, size := size }) live₂)
  have extended₂ := (extended₁.placed placed₂).setObj (.inr (.inl rfl)) (.process
    { ({} : Process) with filetype := processFiletypeBinary, ptr := ptr, size := size })
  obtain ⟨stack, k₃, _, alloc₃, packed₃, placed₃⟩ := kmalloc_packed program
    (show 1 ≤ peachosUserProgramStackSize by decide) (by decide)
    (show blocksFor peachosUserProgramStackSize = 4 by decide) room₃
    (.bytes (List.replicate peachosUserProgramStackSize 0))
  have here₃ : k₃.objs process = some (.process { ({} : Process) with
      filetype := processFiletypeBinary, ptr := ptr, size := size }) :=
    (placed₃.kept _ (List.mem_cons_of_mem _ List.mem_cons_self)).trans
      (Kernel.setObj_objs_self ..)
  have live₃ : (k₃.objs process).isSome := by
    rw [here₃]
    rfl
  have loaded₃ : (load Obj.process? process).run k₃ = .ok (_, k₃) := load_of_obj here₃ rfl
  have stacked := packed₃.of_writes (writes k₃ (.process { ({} : Process) with
    filetype := processFiletypeBinary, ptr := ptr, size := size, stack := stack }) live₃)
  have extended₃ := (extended₂.placed placed₃).setObj (.inr (.inr (.inl rfl))) (.process
    { ({} : Process) with
      filetype := processFiletypeBinary, ptr := ptr, size := size, stack := stack })
  obtain ⟨live', memory, k₄, new, _, here₄, _, packed₄⟩ := @taskNew_packed _ _ _ _ _
    (state.tasks.extended extended₃) stacked ⟨process, sizeofProcess⟩
    (List.mem_cons_of_mem _ (List.mem_cons_of_mem _ List.mem_cons_self)) _
    (Kernel.setObj_objs_self ..) room
  have live₄ : (k₄.objs process).isSome := by
    rw [here₄]
    rfl
  have loaded₄ : (load Obj.process? process).run k₄ = .ok (_, k₄) := load_of_obj here₄ rfl
  refine ⟨process, _, ?_, placed₁.notNull, (packed₄.of_writes (writes k₄ (.process { ({} : Process)
    with filetype := processFiletypeBinary, ptr := ptr, size := size, stack := stack,
         task := memory.task }) live₄)).free⟩
  have allocated : (processSetUpProgram process (some size)).run
      (k₁.setObj process (some (.process {}))) = .ok (true, k₂.setObj process (some (.process
        { ({} : Process) with filetype := processFiletypeBinary, ptr := ptr, size := size }))) := by
    rw [processSetUpProgram, kzalloc, Exec.bind_of_ok alloc₂, if_neg placed₂.notNull,
      Exec.bind_of_ok loaded₂, Exec.bind_of_ok (store_of_live live₂), Exec.run_pure]
  rw [processSetUp, kzalloc, Exec.bind_of_ok alloc₁, if_neg placed₁.notNull, processInit,
    Exec.bind_of_ok (store_of_live live₁), Exec.bind_of_ok allocated, if_pos rfl,
    processSetUpTask, kzalloc, Exec.bind_of_ok alloc₃, Exec.bind_of_ok loaded₃,
    Exec.bind_of_ok (store_of_live live₃), if_neg placed₃.notNull, Exec.bind_of_ok new,
    Exec.bind_of_ok loaded₄, Exec.bind_of_ok (store_of_live live₄), Exec.run_pure]

end Progress

/-- Two processes with programs of two pages in a fresh kernel. -/
theorem setUp_isolates_boot : ∃ first second kernel,
    SetUpRun bootKernel [first, second] [second, first] kernel ∧ first ≠ second ∧
      ∀ frame, UserWrites kernel first frame → ¬ UserWrites kernel second frame := by
  have inv := freshKernel_invariant kernelHeapRegion
  have empty : TaskList [] bootKernel :=
    ⟨rfl, rfl, trivial, iff_of_true rfl rfl, fun more => absurd rfl more, nofun, nofun, .nil⟩
  have state₀ : SetUpState kernelHeapRegion [] [] [] bootKernel :=
    ⟨⟨inv, .nil, nofun, empty⟩, .nil, nofun, nofun, nofun⟩
  have inside : ∀ size ∈ some 5000,
      peachosProgramVirtualAddress + pagingPageSize * blocksFor size ≤ 4294967296 := by
    rintro size ⟨⟩
    decide
  obtain ⟨first, k₁, run₁, satisfied₁, free₁⟩ := processSetUp_packed state₀
    (freshKernel_packed kernelHeapRegion) (show 1 ≤ 5000 by decide) (by decide)
    (show blocksFor 5000 = 2 by decide) (by decide)
  obtain ⟨live₁, record₁, rfl, state₁⟩ := processSetUp_spec state₀ inside run₁ satisfied₁
  obtain ⟨second, k₂, run₂, satisfied₂, _⟩ := processSetUp_packed state₁
    ⟨state₁.tasks.invariant, free₁⟩ (show 1 ≤ 5000 by decide) (by decide)
    (show blocksFor 5000 = 2 by decide) (by decide)
  obtain ⟨live₂, record₂, rfl, state₂⟩ := processSetUp_spec state₁ inside run₂ satisfied₂
  have different : record₁.process ≠ record₂.process := fun same =>
    (List.pairwise_cons.mp state₂.owned.apart).1 record₂ (List.mem_singleton_self _)
      record₁.process (.inl rfl) (.inl same)
  obtain ⟨k₃, run₃, state₃⟩ := processMapMemory_state state₂ List.mem_cons_self List.not_mem_nil
  obtain ⟨k₄, run₄, _⟩ := processMapMemory_state state₃
    (List.mem_cons_of_mem _ (List.mem_singleton_self _))
    (fun listed => different (List.mem_singleton.mp listed).symm)
  have run : SetUpRun bootKernel [record₁.process, record₂.process]
      [record₂.process, record₁.process] k₄ :=
    (((SetUpRun.start.setUp inside run₁ satisfied₁).setUp inside run₂ satisfied₂).map
      List.mem_cons_self List.not_mem_nil run₃).map
        (List.mem_cons_of_mem _ (List.mem_singleton_self _))
        (fun listed => different (List.mem_singleton.mp listed).symm) run₄
  obtain ⟨_, _, _, _, apart⟩ := setUp_isolates inv empty run
  exact ⟨_, _, k₄, run, different, apart _ (List.mem_cons_of_mem _ (List.mem_singleton_self _)) _
    List.mem_cons_self different⟩

end Peachos
