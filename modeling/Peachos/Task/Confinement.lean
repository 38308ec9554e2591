import Peachos.Task.Switching
import Peachos.Task.UserMode

/-! # What the user mode cannot do

Any number of processes is set up and mapped, and the first task is started. From then on tasks
store wherever the processor lets them, and are interrupted at any time. At every moment the
processor translates with the page directory of the current task, a store goes to the program or
the stack of its process, and the objects of the kernel keep their contents but for the saved
registers (`userRun_confined`).
-/

namespace Peachos

open CInt X86

/-- The blocks of a process hold bytes. -/
def HoldsBytes (record : ProcessMemory) (kernel : Kernel) : Prop :=
  ∀ block ∈ record.blocks, ∃ contents, kernel.objs block.ptr = some (.bytes contents)

section SetUp

variable {region : KernelRegion} {live live' : List Allocation} {start kernel next : Kernel}
  {owned : Nat → Prop} {process : Nat}

/-- The program block of a process holds bytes. -/
theorem processSetUpProgram_bytes
    (extended : Extended region live live' start kernel owned) (own : owned process)
    (here : kernel.objs process = some (.process {})) {program : Option Nat}
    (inside : ∀ size ∈ program,
      peachosProgramVirtualAddress + pagingPageSize * blocksFor size ≤ 4294967296)
    (run : (processSetUpProgram process program).run kernel = .ok (true, next)) :
    ∃ (live'' : List Allocation) (owned' : Nat → Prop) (value : Process),
      Extended region live live'' start next owned' ∧ owned' process ∧
      next.objs process = some (.process value) ∧
      (0 < value.size → ⟨value.ptr, value.size⟩ ∈ live'' ∧
        next.objs value.ptr = some (.bytes (List.replicate value.size 0))) := by
  cases program with
  | none =>
      cases run
      exact ⟨live', owned, {}, extended, own, here, fun more => absurd more (Nat.lt_irrefl 0)⟩
  | some size =>
      have fitsInside := inside size rfl
      have small : size ≤ 4294963200 := by
        have covers := size_le_blocksFor size
        unfold peachosHeapBlockSize at covers
        unfold peachosProgramVirtualAddress pagingPageSize at fitsInside
        omega
      obtain ⟨ptr, allocated, alloc, run₁⟩ := Exec.bind_eq_ok.mp run
      by_cases null : ptr = 0
      · rw [if_pos null] at run₁
        cases run₁
      rw [if_neg null] at run₁
      obtain ⟨allocation, member, rfl⟩ := extended.held process own
      obtain ⟨contents, value, found, typed, run₂⟩ := load_bind_eq_ok.mp run₁
      obtain ⟨_, run₃⟩ := store_bind_eq_ok.mp run₂
      cases run₃
      rcases kmalloc_completed extended.invariant small alloc with
        ⟨refused, _⟩ | ⟨rfl, placed⟩ | ⟨positive, placed⟩
      · exact absurd refused null
      · exact ⟨live', owned, _, (extended.placedEmpty placed).setObj own _, own,
          Kernel.setObj_objs_self .., fun more => absurd more (Nat.lt_irrefl 0)⟩
      · have apart : ptr ≠ allocation.ptr := fun same => placed.fresh allocation member same.symm
        exact ⟨_, _, _, (extended.placed placed).setObj (.inr own) _, .inr own,
          Kernel.setObj_objs_self .., fun _ => ⟨List.mem_cons_self,
            (Kernel.setObj_objs_of_ne _ _ apart).trans placed.present⟩⟩

/-- The stack of a process holds bytes, and its new task has the registers of `task_init`. -/
theorem processSetUpTask_saved {memories : List TaskMemory}
    (tasks : TaskState region live memories start)
    (extended : Extended region live live' start kernel owned) (own : owned process)
    {value : Process} (here : kernel.objs process = some (.process value))
    (program : 0 < value.size → ⟨value.ptr, value.size⟩ ∈ live' ∧
      kernel.objs value.ptr = some (.bytes (List.replicate value.size 0)))
    {result : Nat} (run : (processSetUpTask process).run kernel = .ok (result, next))
    (satisfied : result ≠ 0) :
    ∃ after, next.objs result = some (.process after) ∧
      (∀ block ∈ after.blocks, ∃ contents, next.objs block.ptr = some (.bytes contents)) ∧
      SavedAs next after.task taskInitCpu ∧
      (∀ memory ∈ memories, ∀ cpu, SavedAs start memory.task cpu → SavedAs next memory.task cpu) ∧
      ∀ allocation ∈ live, (∀ task, start.objs allocation.ptr ≠ some (.task task)) →
        next.objs allocation.ptr = start.objs allocation.ptr := by
  obtain ⟨stack, stacked, alloc, run₁⟩ := Exec.bind_eq_ok.mp run
  obtain ⟨contents, found, processHere, typed, run₂⟩ := load_bind_eq_ok.mp run₁
  obtain ⟨_, run₃⟩ := store_bind_eq_ok.mp run₂
  rcases kmalloc_positive extended.invariant (by decide) (by decide) alloc with
    ⟨rfl, rfl⟩ | placed
  · rw [if_pos rfl] at run₃
    cases run₃
    exact absurd rfl satisfied
  rw [if_neg placed.notNull] at run₃
  obtain ⟨allocation, member, rfl⟩ := extended.held process own
  rw [placed.kept allocation member, here] at processHere
  cases processHere
  cases typed
  have extended₃ := (extended.placed placed).setObj (.inr own)
    (.process { value with stack := stack })
  obtain ⟨task, made, new, run₄⟩ := Exec.bind_eq_ok.mp run₃
  obtain ⟨live'', memory, rfl, taskMade⟩ := taskNew_spec (tasks.extended extended₃) new
  obtain ⟨contents, found, processHere, typed, run₅⟩ := load_bind_eq_ok.mp run₄
  obtain ⟨_, run₆⟩ := store_bind_eq_ok.mp run₅
  cases run₆
  -- The blocks that are live before the task is made keep their contents.
  have kept : ∀ block ∈ ⟨stack, peachosUserProgramStackSize⟩ :: live',
      block.ptr ≠ allocation.ptr → (∀ task, stacked.objs block.ptr ≠ some (.task task)) →
      (made.setObj allocation.ptr (some (.process { found with task := memory.task }))).objs
        block.ptr = stacked.objs block.ptr := by
    intro block listed apart notTask
    have same : (stacked.setObj allocation.ptr
        (some (.process { value with stack := stack }))).objs block.ptr = stacked.objs block.ptr :=
      Kernel.setObj_objs_of_ne _ _ apart
    rw [Kernel.setObj_objs_of_ne _ _ apart, taskMade.kept block listed (by rw [same]; exact notTask),
      same]
  have listed : allocation ∈ ⟨stack, peachosUserProgramStackSize⟩ :: live' :=
    List.mem_cons_of_mem _ member
  have processKept := taskMade.kept allocation listed fun task => by
    rw [Kernel.setObj_objs_self]
    nofun
  rw [Kernel.setObj_objs_self] at processKept
  have same := processKept
  rw [processHere] at same
  cases same
  cases typed
  have taskApart : ∀ {other : Nat} {old : Task}, made.objs other = some (.task old) →
      other ≠ allocation.ptr := fun there => Kernel.ne_of_objs there processKept nofun
  obtain ⟨after, before, holds⟩ := taskMade.made
  refine ⟨_, Kernel.setObj_objs_self .., ?_, ⟨_, (Kernel.setObj_objs_of_ne _ _
    (taskApart holds.task)).trans holds.task, rfl⟩, ?_, ?_⟩
  · intro block blockListed
    have stackApart : stack ≠ allocation.ptr := fun same =>
      placed.fresh allocation member same.symm
    rcases List.mem_cons.mp blockListed with rfl | programListed
    · exact ⟨_, (kept _ List.mem_cons_self stackApart fun task => by
        rw [placed.present]; nofun).trans placed.present⟩
    · obtain ⟨isProgram, positive⟩ := List.mem_filter.mp programListed
      rw [Option.toList_some, List.mem_singleton] at isProgram
      subst isProgram
      obtain ⟨inLive, bytes⟩ := program (of_decide_eq_true positive)
      have there : stacked.objs value.ptr = some (.bytes (List.replicate value.size 0)) :=
        (placed.kept _ inLive).trans bytes
      have programApart : value.ptr ≠ allocation.ptr := by
        intro equal
        rw [equal, here] at bytes
        cases bytes
      exact ⟨_, (kept _ (List.mem_cons_of_mem _ inLive) programApart fun task => by
        rw [there]; nofun).trans there⟩
  · rintro other otherListed cpu ⟨old, there, saved⟩
    obtain ⟨old', pages, holds'⟩ := tasks.holds other otherListed
    rw [holds'.task] at there
    cases there
    have still := holds'.of_kept fun ptr own => tasks.owned.kept extended₃ otherListed own
    obtain ⟨after, before, last⟩ := taskMade.task other otherListed _ _ still
    exact ⟨_, (Kernel.setObj_objs_of_ne _ _ (taskApart last.task)).trans last.task, saved⟩
  · intro other old notTask
    have apart : other.ptr ≠ allocation.ptr := fun equal =>
      extended.fresh other old (equal ▸ own)
    have before := (placed.kept other (extended.grown old)).trans (extended.kept other old)
    exact (kept other (List.mem_cons_of_mem _ (extended.grown old)) apart
      (by rw [before]; exact notTask)).trans before

/-- **Setting up a process.** Its blocks hold bytes and its task has the registers of `task_init`;
the other processes keep theirs. -/
theorem processSetUp_saved {records : List ProcessMemory} {mapped : List Nat}
    (state : SetUpState region live records mapped kernel) {program : Option Nat}
    (inside : ∀ size ∈ program,
      peachosProgramVirtualAddress + pagingPageSize * blocksFor size ≤ 4294967296)
    (run : (processSetUp program).run kernel = .ok (process, next)) (satisfied : process ≠ 0) :
    ∃ after, next.objs process = some (.process after) ∧
      (∀ block ∈ after.blocks, ∃ contents, next.objs block.ptr = some (.bytes contents)) ∧
      SavedAs next after.task taskInitCpu ∧
      (∀ memory ∈ records.map ProcessMemory.memory, ∀ cpu,
        SavedAs kernel memory.task cpu → SavedAs next memory.task cpu) ∧
      ∀ allocation ∈ live, (∀ task, kernel.objs allocation.ptr ≠ some (.task task)) →
        next.objs allocation.ptr = kernel.objs allocation.ptr := by
  obtain ⟨ptr, allocated, alloc, run₁⟩ := Exec.bind_eq_ok.mp run
  rcases kmalloc_positive state.tasks.invariant (by decide) (by decide) alloc with
    ⟨rfl, rfl⟩ | placed
  · rw [if_pos rfl] at run₁
    cases run₁
    exact absurd rfl satisfied
  rw [if_neg placed.notNull] at run₁
  obtain ⟨_, run₂⟩ := store_bind_eq_ok.mp run₁
  obtain ⟨held, loaded, setUp, run₃⟩ := Exec.bind_eq_ok.mp run₂
  cases held with
  | false =>
      rw [if_neg (by decide)] at run₃
      cases run₃
      exact absurd rfl satisfied
  | true =>
      rw [if_pos rfl] at run₃
      obtain ⟨live₁, owned₁, value, extended, own, here, bytes⟩ := processSetUpProgram_bytes
        (((Extended.refl state.tasks.invariant).placed placed).setObj (.inl rfl) (.process {}))
        (.inl rfl) (Kernel.setObj_objs_self ..) inside setUp
      exact processSetUpTask_saved state.tasks extended own here bytes run₃ satisfied

/-- The processes of a run hold bytes in their blocks, and their tasks have the registers of
`task_init`. -/
theorem SetUpRun.saved {processes mapped : List Nat} (inv : KernelInvariant region live start)
    (empty : TaskList [] start) (run : SetUpRun start processes mapped kernel) :
    ∃ live' records, processes = records.map ProcessMemory.process ∧
      SetUpState region live' records mapped kernel ∧ ∀ record ∈ records,
        HoldsBytes record kernel ∧ SavedAs kernel record.memory.task taskInitCpu := by
  induction run with
  | start => exact ⟨live, [], rfl, ⟨⟨inv, .nil, nofun, empty⟩, .nil, nofun, nofun, nofun⟩, nofun⟩
  | setUp before inside run satisfied ih =>
      obtain ⟨live', records, rfl, state, saved⟩ := ih
      obtain ⟨live'', record, rfl, state'⟩ := processSetUp_spec state inside run satisfied
      obtain ⟨after, here, bytes, new, others, kept⟩ :=
        processSetUp_saved state inside run satisfied
      refine ⟨live'', records ++ [record], by rw [List.map_append, List.map_singleton], state',
        fun other member => ?_⟩
      rcases List.mem_append.mp member with old | last
      · obtain ⟨held, registers⟩ := saved other old
        refine ⟨fun block listed => ?_, others _ (List.mem_map_of_mem old) _ registers⟩
        obtain ⟨contents, there⟩ := held block listed
        exact ⟨contents, (kept block (state.blocks other old block listed)
          fun task => by rw [there]; nofun).trans there⟩
      · rw [List.mem_singleton.mp last]
        obtain ⟨⟨value, there, described⟩, _, _⟩ := state'.holds record
          (List.mem_append_right _ (List.mem_singleton_self _))
        rw [here] at there
        cases there
        rw [described.task] at new
        exact ⟨fun block listed => bytes block (described.blocks ▸ listed), new⟩
  | map before member unmapped run ih =>
      obtain ⟨live', records, rfl, state, saved⟩ := ih
      obtain ⟨record, listed, rfl⟩ := List.mem_map.mp member
      obtain ⟨next, run', state'⟩ := processMapMemory_state state listed unmapped
      rw [run] at run'
      cases run'
      have holds := state.holds record listed
      rw [if_neg unmapped] at holds
      obtain ⟨_, run', _, only⟩ := processMapMemory_spec holds
      rw [run] at run'
      cases run'
      obtain ⟨task, taskHolds⟩ := holds.task
      refine ⟨live', records, rfl, state', fun other old => ?_⟩
      obtain ⟨held, value, here, registers⟩ := saved other old
      refine ⟨fun block blockListed => ?_, value, ?_, registers⟩
      · obtain ⟨contents, there⟩ := held block blockListed
        refine ⟨contents, (only.kept _ fun own => ?_).trans there⟩
        rcases taskHolds.map.contents own with ⟨directory, found⟩ | ⟨entries, found⟩ <;>
          rw [there] at found <;> cases found
      · exact (only.kept _ fun own => taskHolds.map.not_task own value here).trans here

end SetUp

/-- Every process is set up and mapped, and the processor translates with the page directory of
the current task. -/
structure ConfinedState (region : KernelRegion) (live : List Allocation)
    (records : List ProcessMemory) (kernel : Kernel) : Prop where
  tasks : TaskState region live (records.map ProcessMemory.memory) kernel
  owned : Owned ProcessMemory.owns live records
  holds : ∀ record ∈ records, ProcessHolds record record.mappedPages kernel
  blocks : ∀ record ∈ records, ∀ block ∈ record.blocks, block ∈ live
  bytes : ∀ record ∈ records, HoldsBytes record kernel
  user : ∀ record ∈ records, ∃ value, kernel.objs record.memory.task = some (.task value) ∧
    Cpu.privilege value.registers.cs = 3
  translates : TranslatesCurrent kernel

section Steps

variable {region : KernelRegion} {live : List Allocation} {records : List ProcessMemory}
  {kernel next : Kernel}

theorem ProcessHolds.of_kept {record : ProcessMemory} {pages : Nat → Nat}
    (holds : ProcessHolds record pages kernel)
    (process : next.objs record.process = kernel.objs record.process)
    (memory : ∀ ptr, record.memory.owns ptr → next.objs ptr = kernel.objs ptr) :
    ProcessHolds record pages next := by
  obtain ⟨⟨value, here, described⟩, ⟨task, taskHolds⟩, fits⟩ := holds
  exact ⟨⟨value, process.trans here, described⟩, ⟨task, taskHolds.of_kept memory⟩, fits⟩

/-- Writing what a task holds besides its page directory. -/
theorem ProcessHolds.setTask {record : ProcessMemory} {pages : Nat → Nat}
    (holds : ProcessHolds record pages kernel) {task : Nat} {old value : Task}
    (here : kernel.objs task = some (.task old))
    (sameDirectory : value.pageDirectory = old.pageDirectory) :
    ProcessHolds record pages (kernel.setObj task (some (.task value))) := by
  obtain ⟨⟨process, there, described⟩, ⟨found, taskHolds⟩, fits⟩ := holds
  have map := taskHolds.map.of_kept fun ptr own => Kernel.setObj_objs_of_ne kernel
    (some (.task value)) fun same => taskHolds.map.not_task own old (same ▸ here)
  refine ⟨⟨process, (Kernel.setObj_objs_of_ne _ _ (Kernel.ne_of_objs there here nofun)).trans there,
    described⟩, ?_, fits⟩
  by_cases same : record.memory.task = task
  · subst same
    have before := taskHolds.task
    rw [here] at before
    cases before
    exact ⟨value, Kernel.setObj_objs_self .., sameDirectory.trans taskHolds.pageDirectory, map⟩
  · exact ⟨found, (Kernel.setObj_objs_of_ne _ _ same).trans taskHolds.task,
      taskHolds.pageDirectory, map⟩

/-- Saving registers of the user mode in the current task. -/
theorem ConfinedState.setRegisters (state : ConfinedState region live records kernel) {value : Task}
    (here : kernel.objs kernel.currentTask = some (.task value)) {registers : Registers}
    (userMode : Cpu.privilege registers.cs = 3) :
    ConfinedState region live records (kernel.setObj kernel.currentTask
      (some (.task { value with registers := registers }))) where
  tasks := state.tasks.setTask here rfl rfl rfl
  owned := state.owned
  holds := fun record member => (state.holds record member).setTask here rfl
  blocks := state.blocks
  bytes := by
    intro record member block listed
    obtain ⟨contents, there⟩ := state.bytes record member block listed
    exact ⟨contents, (Kernel.setObj_objs_of_ne _ _ (Kernel.ne_of_objs there here nofun)).trans there⟩
  user := by
    intro record member
    by_cases same : record.memory.task = kernel.currentTask
    · rw [same]
      exact ⟨_, Kernel.setObj_objs_self .., userMode⟩
    · obtain ⟨found, there, saved⟩ := state.user record member
      exact ⟨found, (Kernel.setObj_objs_of_ne _ _ same).trans there, saved⟩
  translates := by
    obtain ⟨found, there, chunk⟩ := state.translates
    rw [here] at there
    cases there
    exact ⟨_, Kernel.setObj_objs_self .., (Kernel.setObj_objs_of_ne _ _
      (Kernel.ne_of_objs chunk here nofun)).trans chunk⟩

/-- Switching to a task and its page directory. -/
theorem ConfinedState.switch (state : ConfinedState region live records kernel)
    (heap : next.heap = kernel.heap) (objs : next.objs = kernel.objs)
    (head : next.taskHead = kernel.taskHead) (tail : next.taskTail = kernel.taskTail)
    (current : next.currentTask ∈ (records.map ProcessMemory.memory).map TaskMemory.task)
    (translates : TranslatesCurrent next) : ConfinedState region live records next where
  tasks := state.tasks.switch heap objs head tail current
  owned := state.owned
  holds := fun record member => (state.holds record member).of_kept (congrFun objs _)
    fun ptr _ => congrFun objs ptr
  blocks := state.blocks
  bytes := by
    intro record member block listed
    rw [objs]
    exact state.bytes record member block listed
  user := by
    intro record member
    rw [objs]
    exact state.user record member
  translates := translates

/-- The current task is that of a process. -/
theorem ConfinedState.listed (state : ConfinedState region live records kernel) :
    kernel.currentTask ∈ (records.map ProcessMemory.memory).map TaskMemory.task := by
  refine state.tasks.list.current fun none => ?_
  obtain ⟨value, here, _⟩ := state.translates
  rw [state.tasks.list.currentNull.mpr none, state.tasks.invariant.null] at here
  cases here

/-- **A handler** saves registers of the user mode and switches between the tasks. -/
theorem ConfinedState.served (state : ConfinedState region live records kernel)
    {frame : InterruptFrame} (userMode : Cpu.privilege frame.cs = 3)
    (served : Served frame kernel next) :
    ConfinedState region live records next ∧ next.heap = kernel.heap ∧
      ∀ ptr, SameButRegisters (kernel.objs ptr) (next.objs ptr) := by
  have current : next.currentTask ∈ (records.map ProcessMemory.memory).map TaskMemory.task := by
    rcases served.current with same | ⟨value, here, following⟩
    · rw [same]
      exact state.listed
    · obtain ⟨position, inside, at'⟩ := List.getElem_of_mem state.listed
      rw [following]
      exact List.mem_of_getElem? (state.tasks.list.getNext
        ((List.getElem?_eq_getElem inside).trans (congrArg some at')) here)
  rcases served.objs with same | ⟨value, here, same⟩
  · exact ⟨state.switch served.heap same served.head served.tail current served.translates,
      served.heap, fun ptr => .inl (congrFun same ptr)⟩
  · refine ⟨(state.setRegisters here userMode).switch served.heap same served.head served.tail
      current served.translates, served.heap, fun ptr => ?_⟩
    rw [same]
    by_cases isCurrent : ptr = kernel.currentTask
    · rw [isCurrent, Kernel.setObj_objs_self]
      exact .inr ⟨value, _, here, rfl⟩
    · exact .inl (Kernel.setObj_objs_of_ne _ _ isCurrent)

/-- Writing a buffer. -/
theorem ConfinedState.setBytes (state : ConfinedState region live records kernel) {ptr : Nat}
    {before : List UInt8} (here : kernel.objs ptr = some (.bytes before)) (after : List UInt8) :
    ConfinedState region live records (kernel.setObj ptr (some (.bytes after))) := by
  have kept : ∀ {other : Nat} {contents : Obj}, kernel.objs other = some contents →
      contents.bytes? = none →
      (kernel.setObj ptr (some (.bytes after))).objs other = some contents := by
    intro other contents there typed
    refine (Kernel.setObj_objs_of_ne _ _ (Kernel.ne_of_objs there here ?_)).trans there
    rintro rfl
    cases typed
  have present : (kernel.objs ptr).isSome := by
    rw [here]
    rfl
  have memories : ∀ {memory : TaskMemory} {value : Task} {pages : Nat → Nat},
      TaskHolds memory value pages kernel → ∀ other, memory.owns other →
      (kernel.setObj ptr (some (.bytes after))).objs other = kernel.objs other := by
    rintro memory value pages holds other (rfl | own)
    · exact (kept holds.task rfl).trans holds.task.symm
    · rcases holds.map.contents own with ⟨directory, there⟩ | ⟨entries, there⟩ <;>
        exact (kept there rfl).trans there.symm
  refine ⟨⟨state.tasks.invariant.setObj present _, state.tasks.owned, fun memory member => ?_,
    state.tasks.list.of_kept (fun task listed => ?_) rfl rfl rfl⟩, state.owned,
    fun record member => ?_, state.blocks, fun record member block listed => ?_,
    fun record member => ?_, ?_⟩
  · obtain ⟨value, pages, holds⟩ := state.tasks.holds memory member
    exact ⟨value, pages, holds.of_kept (memories holds)⟩
  · obtain ⟨value, there⟩ := state.tasks.list.present task listed
    exact (kept there rfl).trans there.symm
  · obtain ⟨value, there, _⟩ := (state.holds record member).process
    obtain ⟨task, holds⟩ := (state.holds record member).task
    exact (state.holds record member).of_kept ((kept there rfl).trans there.symm) (memories holds)
  · by_cases same : block.ptr = ptr
    · rw [same]
      exact ⟨after, Kernel.setObj_objs_self ..⟩
    · obtain ⟨contents, there⟩ := state.bytes record member block listed
      exact ⟨contents, (Kernel.setObj_objs_of_ne _ _ same).trans there⟩
  · obtain ⟨value, there, saved⟩ := state.user record member
    exact ⟨value, kept there rfl, saved⟩
  · obtain ⟨value, there, chunk⟩ := state.translates
    exact ⟨value, kept there rfl, kept chunk rfl⟩

/-- The process of the current task translates as the processor does. -/
theorem ConfinedState.running (state : ConfinedState region live records kernel) :
    ∃ record ∈ records, kernel.currentTask = record.memory.task ∧ ∀ virt,
      (userWalk record.process virt).run kernel = (mmuWalk kernel.currentDirectory virt).run kernel := by
  obtain ⟨memory, member, same⟩ := List.mem_map.mp state.listed
  obtain ⟨record, listed, rfl⟩ := List.mem_map.mp member
  obtain ⟨value, here, described⟩ := (state.holds record listed).process
  obtain ⟨task, taskHere, chunk⟩ := state.translates
  refine ⟨record, listed, same.symm, fun virt => ?_⟩
  have loadedTask : (load Obj.task? value.task).run kernel = .ok (task, kernel) := by
    rw [described.task, same]
    exact load_of_obj taskHere rfl
  have loadedProcess : (load Obj.process? record.process).run kernel = .ok (value, kernel) :=
    load_of_obj here rfl
  have loadedChunk : (load Obj.chunk? task.pageDirectory).run kernel =
      .ok (kernel.currentDirectory, kernel) := load_of_obj chunk rfl
  rw [userWalk, Exec.bind_of_ok loadedProcess, Exec.bind_of_ok loadedTask,
    Exec.bind_of_ok loadedChunk]

/-- Live blocks that hold one address are the same block. -/
theorem KernelInvariant.block_of_address (inv : KernelInvariant region live kernel)
    {first second : Allocation} (member : first ∈ live) (other : second ∈ live) {address : Nat}
    (held : first.holdsAddress address) (held' : second.holdsAddress address) :
    first.ptr = second.ptr := by
  by_contra different
  have frames : ∀ {block : Allocation}, block ∈ live → block.holdsAddress address →
      block.holdsFrame (address / pagingPageSize) := by
    intro block listed inside
    have present : (kernel.objs block.ptr).isSome := inv.held block listed
    have aligned := (inv.obj_placed present).1
    unfold Allocation.holdsAddress Allocation.holdsFrame at *
    unfold peachosHeapBlockSize pagingPageSize at *
    omega
  exact inv.frames_apart member other different (frames member held) (frames other held')

/-- **A store** goes to a block of the process of the current task. -/
theorem ConfinedState.stored (state : ConfinedState region live records kernel) {virt : Nat}
    {byte : UInt8} {access : Access} (word : virt < 4294967296)
    (walk : (mmuWalk kernel.currentDirectory virt).run kernel = .ok (some access, kernel))
    (user : access.user = true) (writeable : access.writeable = true)
    (stored : PhysicalStore live kernel access.address byte next) :
    ConfinedState region live records next ∧ ∃ record ∈ records,
      kernel.currentTask = record.memory.task ∧ ∃ block ∈ record.blocks, ∃ before after,
        kernel.objs block.ptr = some (.bytes before) ∧
          next = kernel.setObj block.ptr (some (.bytes after)) := by
  obtain ⟨record, listed, current, walks⟩ := state.running
  obtain ⟨value, here, same, maps⟩ :=
    mapsOwn_of_holds (state.holds record listed) (state.blocks record listed)
  obtain ⟨block, taken, frame⟩ := maps.frames (access.address / pagingPageSize)
    ⟨virt, word, access, (walks virt).trans walk, user, writeable, rfl⟩
  have held : block.holdsAddress access.address := by
    unfold Allocation.holdsFrame at frame
    unfold Allocation.holdsAddress
    unfold peachosHeapBlockSize pagingPageSize at *
    omega
  have member := maps.live block taken
  rw [same] at taken
  obtain ⟨contents, there⟩ := state.bytes record listed block taken
  cases stored with
  | elsewhere outside => exact absurd held (outside block member)
  | block other inside before written =>
      rw [state.tasks.invariant.block_of_address other member inside held] at before written ⊢
      rw [there] at before
      cases before
      cases written with
      | structured notBytes => cases notBytes
      | bytes _ =>
          exact ⟨state.setBytes there _, record, listed, current, block, taken, _, _, there, rfl⟩

end Steps

section Runs

variable {region : KernelRegion} {live : List Allocation} {records : List ProcessMemory}
  {start kernel : Kernel} {processes mapped ran : List Nat}

/-- Only blocks of the processes whose tasks ran, and registers, have changed. -/
def KeepsOtherBlocks (records : List ProcessMemory) (ran : List Nat) (kernel next : Kernel) : Prop :=
  ∀ ptr, (∀ record ∈ records, record.memory.task ∈ ran → ∀ block ∈ record.blocks,
      block.ptr ≠ ptr) → SameButRegisters (kernel.objs ptr) (next.objs ptr)

/-- **Runs of the user mode.** -/
theorem UserRun.confined (state : ConfinedState region live records start)
    (run : UserRun live start ran kernel) :
    ConfinedState region live records kernel ∧ kernel.heap = start.heap ∧
      KeepsOtherBlocks records ran start kernel := by
  induction run with
  | start => exact ⟨state, rfl, fun _ _ => .inl rfl⟩
  | interrupt before userMode run ih =>
      obtain ⟨middle, heap, kept⟩ := ih
      obtain ⟨last, heap', kept'⟩ := middle.served userMode (interruptHandler_served run)
      exact ⟨last, heap'.trans heap, fun ptr apart => (kept ptr apart).trans (kept' ptr)⟩
  | systemCall before userMode run ih =>
      obtain ⟨middle, heap, kept⟩ := ih
      obtain ⟨last, heap', kept'⟩ := middle.served userMode (isr80hHandler_served run)
      exact ⟨last, heap'.trans heap, fun ptr apart => (kept ptr apart).trans (kept' ptr)⟩
  | store before word walk user writeable stored ih =>
      obtain ⟨middle, heap, kept⟩ := ih
      obtain ⟨last, record, listed, current, block, taken, _, _, _, rfl⟩ :=
        middle.stored word walk user writeable stored
      refine ⟨last, heap, fun ptr apart => ?_⟩
      refine (kept ptr fun other member stored => apart other member
        (List.mem_cons_of_mem _ stored)).trans (.inl (Kernel.setObj_objs_of_ne _ _ ?_))
      exact (apart record listed (by rw [current]; exact List.mem_cons_self) block taken).symm

/-- The user mode runs in the address space of the process of the current task, which reaches its
own memory only, and every process is continued in the user mode. -/
structure RunsInOwnSpace (live : List Allocation) (processes : List Nat) (kernel : Kernel) : Prop
    where
  current : ∃ process ∈ processes, ∃ value, kernel.objs process = some (.process value) ∧
    value.task = kernel.currentTask ∧ MapsOwn live kernel process value ∧
    ∀ virt, (userWalk process virt).run kernel =
      (mmuWalk kernel.currentDirectory virt).run kernel
  user : ∀ process ∈ processes, ∃ value task, kernel.objs process = some (.process value) ∧
    kernel.objs value.task = some (.task task) ∧ Cpu.privilege task.registers.cs = 3

theorem ConfinedState.runsInOwnSpace (state : ConfinedState region live records kernel) :
    RunsInOwnSpace live (records.map ProcessMemory.process) kernel where
  current := by
    obtain ⟨record, listed, current, walks⟩ := state.running
    obtain ⟨value, here, _, maps⟩ :=
      mapsOwn_of_holds (state.holds record listed) (state.blocks record listed)
    obtain ⟨value', there, described⟩ := (state.holds record listed).process
    rw [here] at there
    cases there
    exact ⟨record.process, List.mem_map_of_mem listed, value, here, described.task.trans current.symm,
      maps, walks⟩
  user := by
    intro process member
    obtain ⟨record, listed, rfl⟩ := List.mem_map.mp member
    obtain ⟨value, here, described⟩ := (state.holds record listed).process
    obtain ⟨task, there, saved⟩ := state.user record listed
    exact ⟨value, task, here, by rw [described.task, there], saved⟩

theorem ConfinedState.keepsOthers (state : ConfinedState region live records start)
    (kept : KeepsOtherBlocks records ran start kernel) :
    KeepsOthers (records.map ProcessMemory.process) ran start kernel := by
  intro ptr apart
  refine kept ptr fun record listed stored block taken => ?_
  obtain ⟨value, here, described⟩ := (state.holds record listed).process
  exact apart record.process (List.mem_map_of_mem listed) value here
    (by rw [described.task]; exact stored) block (described.blocks ▸ taken)

/-- The first task is started. -/
theorem SetUpRun.confined (inv : KernelInvariant region live start) (empty : TaskList [] start)
    {booted first : Kernel} (setUp : SetUpRun start processes mapped booted)
    (all : ∀ process ∈ processes, process ∈ mapped) {task : Nat}
    (run : taskRunFirstEverTask.run booted = .ok (task, first)) :
    ∃ live' records, processes = records.map ProcessMemory.process ∧
      KernelInvariant region live' booted ∧ ConfinedState region live' records first := by
  obtain ⟨live', records, rfl, state, saved⟩ := setUp.saved inv empty
  have translates := taskRunFirstEverTask_translates run
  obtain ⟨rfl, notNull, directory, rfl⟩ := taskRunFirstEverTask_completed run
  have listed : booted.taskHead ∈ (records.map ProcessMemory.memory).map TaskMemory.task := by
    have nonempty : (records.map ProcessMemory.memory).map TaskMemory.task ≠ [] :=
      fun none => notNull (state.tasks.list.currentNull.mpr none)
    rw [state.tasks.list.head]
    cases tasks : (records.map ProcessMemory.memory).map TaskMemory.task with
    | nil => exact absurd tasks nonempty
    | cons head rest => exact List.mem_cons_self
  refine ⟨live', records, rfl, state.tasks.invariant, state.tasks.switch rfl rfl rfl rfl listed,
    state.owned, fun record member => ?_, state.blocks, fun record member => (saved record member).1,
    fun record member => ?_, translates⟩
  · have holds := state.holds record member
    rw [if_pos (all _ (List.mem_map_of_mem member))] at holds
    exact holds.of_kept rfl fun _ _ => rfl
  · obtain ⟨value, here, registers⟩ := (saved record member).2
    refine ⟨value, here, ?_⟩
    change Cpu.privilege value.registers.cpu.cs = 3
    rw [registers]
    decide

end Runs

/-- The first task can be started. -/
theorem taskRunFirstEverTask_runs {region : KernelRegion} {live : List Allocation}
    {memories : List TaskMemory} {kernel : Kernel} (state : TaskState region live memories kernel)
    (nonempty : memories ≠ []) :
    ∃ next, taskRunFirstEverTask.run kernel = .ok (kernel.taskHead, next) := by
  obtain ⟨memory, rest, rfl⟩ := List.exists_cons_of_ne_nil nonempty
  have notNull : kernel.currentTask ≠ 0 := fun null =>
    List.cons_ne_nil _ _ (state.list.currentNull.mp null)
  have head : kernel.taskHead = memory.task := state.list.head
  obtain ⟨value, pages, holds⟩ := state.holds memory List.mem_cons_self
  have readHead : (Exec.read Kernel.taskHead : K Nat).run kernel = .ok (memory.task, kernel) := by
    rw [Exec.run_read, head]
  rw [head, taskRunFirstEverTask, Exec.bind_of_ok (Exec.run_read _ _), if_neg notNull,
    Exec.bind_of_ok readHead, Exec.bind_of_ok (taskSwitch_of_holds holds), Exec.run_pure]
  exact ⟨_, rfl⟩

/-- A store to the stack of the process of the current task. -/
theorem RunsInOwnSpace.store {live : List Allocation} {processes : List Nat} {kernel : Kernel}
    (own : RunsInOwnSpace live processes kernel)
    (present : ∀ allocation ∈ live, (kernel.objs allocation.ptr).isSome) (byte : UInt8) :
    ∃ next, UserRun live kernel [kernel.currentTask] next := by
  obtain ⟨process, _, value, _, _, maps, walks⟩ := own.current
  have walk := maps.stack 0 (by decide)
  rw [walks] at walk
  have member := maps.live ⟨value.stack, peachosUserProgramStackSize⟩ List.mem_cons_self
  obtain ⟨before, here⟩ := Option.isSome_iff_exists.mp (present _ member)
  obtain ⟨after, written⟩ : ∃ after, Obj.Overwritten 0 byte before after := by
    cases buffer : before.bytes? with
    | none => exact ⟨before, .structured buffer⟩
    | some contents =>
        cases before <;> cases buffer
        exact ⟨_, .bytes contents⟩
  have inside : Allocation.holdsAddress ⟨value.stack, peachosUserProgramStackSize⟩
      (value.stack + 0) := ⟨le_rfl, Nat.lt_add_of_pos_right
        (show 0 < peachosHeapBlockSize * blocksFor peachosUserProgramStackSize by decide)⟩
  have written' : Obj.Overwritten (value.stack + 0 - value.stack) byte before after := by
    rw [Nat.add_zero, Nat.sub_self]
    exact written
  exact ⟨_, UserRun.start.store (by decide) walk rfl rfl (.block member inside here written')⟩

end Peachos
