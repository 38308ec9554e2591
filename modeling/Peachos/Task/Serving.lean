import Peachos.Idt.Idt
import Peachos.Task.Confinement
import Peachos.Task.ProcessBoot

/-! # Interrupts are served

While the processes run in the user mode their tasks stay in the list, and the kernel keeps its page
directory and its table of processes. That is what the handlers need: every interrupt that enters
`interrupt_handler` and every system call is served (`ServingState.serves`), so no handler panics or
uses a pointer that leads nowhere.
-/

namespace Peachos

open X86

/-- The gate of the vector leads to its entry of `interrupt_pointer_table`, which calls
`interrupt_handler`. Vector 0 leads to `idt_zero`, and 0x80 to `isr80h_wrapper`. -/
def EntersInterruptHandler (vector : Nat) : Prop :=
  vector ≠ 0 ∧ vector ≠ 0x80 ∧ vector < peachosTotalInterrupts

/-- Every interrupt that enters `interrupt_handler` and every system call is served, whatever its
frame and its number. -/
structure ServesTraps (kernel : Kernel) : Prop where
  interrupt : ∀ interrupt frame, EntersInterruptHandler interrupt → ∃ result next,
    (interruptHandler interrupt frame).run kernel = .ok (result, next)
  systemCall : ∀ command frame, ∃ next, (isr80hHandler command frame).run kernel = .ok (0, next)

/-- The record of a process with its `id`. -/
def ProcessMemory.loaded (ids : Nat → Nat) (record : ProcessMemory) : LoadedProcess :=
  ⟨record.process, ids record.process, record.memory⟩

/-- What the handlers need besides the memory of the processes: the task of each process leads to it,
its `id` is one of the table, and the kernel has its page directory. -/
structure ServingState (region : KernelRegion) (live : List Allocation)
    (records : List ProcessMemory) (ids : Nat → Nat) (kernel : Kernel) : Prop where
  confined : ConfinedState region live records kernel
  loaded : LoadedState region live (records.map (ProcessMemory.loaded ids)) kernel
  inTable : ∀ record ∈ records, ids record.process < peachosMaxProcesses
  paged : KernelPaged live kernel

section Steps

variable {region : KernelRegion} {live : List Allocation} {records : List ProcessMemory}
  {ids : Nat → Nat} {kernel next : Kernel}

theorem SameButRegisters.obj {before after : Option Obj} (same : SameButRegisters before after)
    {contents : Obj} (here : before = some contents) (typed : contents.task? = none) :
    after = some contents := by
  rcases same with rfl | ⟨value, _, rfl, _⟩
  · exact here
  · cases here
    cases typed

theorem SameButRegisters.task {before after : Option Obj} (same : SameButRegisters before after)
    {value : Task} (here : before = some (.task value)) :
    ∃ value', after = some (.task value') ∧ value'.process = value.process := by
  rcases same with rfl | ⟨_, registers, rfl, rfl⟩
  · exact ⟨value, here, rfl⟩
  · cases here
    exact ⟨_, rfl, rfl⟩

/-- Registers and buffers may change. -/
theorem ServingState.of_kept (state : ServingState region live records ids kernel)
    (confined : ConfinedState region live records next)
    (kept : ∀ ptr contents, kernel.objs ptr = some contents → contents.bytes? = none →
      SameButRegisters (kernel.objs ptr) (next.objs ptr))
    (chunk : next.kernelChunk = kernel.kernelChunk)
    (slots : next.processes.length = kernel.processes.length) :
    ServingState region live records ids next where
  confined := confined
  loaded := by
    refine state.loaded.of_kept ?_ (List.Subset.refl _) (fun record member => ⟨?_, ?_⟩) slots
    · rw [List.map_map]
      exact confined.tasks
    · obtain ⟨value, here, _⟩ := state.loaded.process record member
      exact ((kept _ _ here rfl).obj here rfl).trans here.symm
    · exact fun value here => (kept _ _ here rfl).task here
  inTable := state.inTable
  paged := by
    obtain ⟨allocation, member, same, directory, here⟩ := state.paged
    exact ⟨allocation, member, same.trans chunk.symm, directory,
      chunk ▸ (kept _ _ here rfl).obj here rfl⟩

theorem ServingState.served (state : ServingState region live records ids kernel)
    {frame : InterruptFrame} (userMode : Cpu.privilege frame.cs = 3)
    (served : Served frame kernel next) : ServingState region live records ids next := by
  obtain ⟨confined, _, kept⟩ := state.confined.served userMode served
  exact state.of_kept confined (fun ptr _ _ _ => kept ptr) served.chunk served.slots

/-- **Runs of the user mode.** -/
theorem UserRun.serving {ran : List Nat} {start : Kernel}
    (state : ServingState region live records ids start) (run : UserRun live start ran kernel) :
    ServingState region live records ids kernel := by
  induction run with
  | start => exact state
  | interrupt _ userMode run ih => exact ih.served userMode (interruptHandler_served run)
  | systemCall _ userMode run ih => exact ih.served userMode (isr80hHandler_served run)
  | store _ word walk user writeable stored ih =>
      obtain ⟨confined, _, _, _, block, _, before, after, here, rfl⟩ :=
        ih.confined.stored word walk user writeable stored
      refine ih.of_kept confined (fun ptr contents there typed => .inl ?_) rfl rfl
      refine Kernel.setObj_objs_of_ne _ _ (Kernel.ne_of_objs there here ?_)
      rintro rfl
      cases typed

/-- The page directory of the current task can be loaded again. -/
theorem taskPage_progress {memories : List TaskMemory}
    (state : TaskState region live memories kernel) (nonempty : memories ≠ []) :
    ∃ next, taskPage.run kernel = .ok ((), next) := by
  have listed := state.list.current fun none => nonempty (List.map_eq_nil_iff.mp none)
  obtain ⟨memory, member, same⟩ := List.mem_map.mp listed
  obtain ⟨_, _, holds⟩ := state.holds memory member
  have switch := taskSwitch_of_holds holds
  rw [same] at switch
  exact ⟨_, (Exec.bind_of_ok (Exec.run_read _ _)).trans switch⟩

/-- **The interrupts and the system calls** in one state. -/
theorem ServingState.serves (state : ServingState region live records ids kernel) :
    ServesTraps kernel := by
  obtain ⟨record, member, current, _⟩ := state.confined.running
  have nonempty : records.map ProcessMemory.memory ≠ [] :=
    List.ne_nil_of_mem (List.mem_map_of_mem member)
  have tasks := state.confined.tasks
  refine ⟨fun interrupt frame _ => ?_, fun command frame => ?_⟩
  · rcases Nat.lt_trichotomy interrupt 0x20 with exception | rfl | other
    · obtain ⟨_, next, run⟩ := exception_progress state.loaded (List.mem_map_of_mem member) current
        (state.inTable record member) state.paged exception frame
      exact ⟨_, next, run⟩
    · obtain ⟨_, next, run⟩ := clock_progress tasks nonempty state.paged frame
      exact ⟨_, next, run⟩
    · have ignored : interruptCallbacks interrupt = none := by
        rw [interruptCallbacks, if_neg (by omega), if_neg (by omega)]
      obtain ⟨_, _, _, directory, here⟩ := state.paged
      obtain ⟨next, back⟩ := taskPage_progress
        (tasks.switch rfl rfl rfl rfl state.confined.listed : TaskState region live _
          { kernel with currentDirectory := directory }) nonempty
      have page : kernelPage.run kernel = .ok ((), { kernel with currentDirectory := directory }) :=
        (Exec.bind_of_ok (Exec.run_read _ _)).trans (pagingSwitch_of_obj here)
      exact ⟨none, next, by
        rw [interruptHandler, Exec.bind_of_ok page, ignored, Exec.bind_of_ok back, Exec.run_pure]⟩
  · obtain ⟨_, _, saved, _, page, save, savedTasks, _⟩ :=
      enter_progress tasks nonempty state.paged frame
    obtain ⟨next, back⟩ := taskPage_progress savedTasks nonempty
    exact ⟨next, by
      rw [isr80hHandler, Exec.bind_of_ok page, Exec.bind_of_ok save,
        Exec.bind_of_ok (isr80hHandleCommand_run ..), Exec.bind_of_ok back, Exec.run_pure]⟩

end Steps

end Peachos
