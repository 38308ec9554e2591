import Peachos.Task.ProcessBoot
import Peachos.Task.TaskReturn

/-! # Switching between tasks

The clock interrupts the user mode, and the next task continues; system calls come in between.
Whatever the tasks do, a task continues with the state of the processor that it was interrupted
in (`resumed_cpu`).
-/

namespace Peachos

open CInt X86

/-- The C code calls `task_return` for the registers of a task. The stack below the arguments
holds anything. -/
structure CallsTaskReturn (kernel : Kernel) (task : Nat) (state : State) : Prop where
  code : state.cpu.cs = kernelCodeSelector
  room : 32 ≤ state.cpu.esp
  stack : state.cpu.esp < kernelStackTop
  memory : ∃ stack, state.memory = kernelMemory kernel stack
  argument : state.memory (state.cpu.esp + 4) = some (task + taskRegistersOffset)

/-- A C function that was called at `entered` returns `res`; it kept its caller's part of the
stack. -/
structure ReturnsFromCall (entered : State) (kernel : Kernel) (res : Nat) (state : State) : Prop
    where
  esp : state.cpu.esp = entered.cpu.esp + 4
  code : state.cpu.cs = entered.cpu.cs
  result : state.cpu.eax = res
  memory : ∃ stack, state.memory = kernelMemory kernel stack ∧
    ∀ address, entered.cpu.esp + 12 ≤ address → address < kernelStackTop →
      state.memory address = entered.memory address

/-- What happened: the first task was started, the clock interrupted the user mode and a task was
resumed, or the user mode made a system call. -/
inductive SwitchEvent where
  | first (resumed : Nat)
  | clock (user : Cpu) (resumed : Nat)
  | systemCall (user : Cpu)

def SwitchEvent.resumed : SwitchEvent → Option Nat
  | .first resumed => some resumed
  | .clock _ resumed => some resumed
  | .systemCall _ => none

/-- One event, with the state of the processor in the user mode after it. -/
inductive SwitchStep (kernel : Kernel) : SwitchEvent → Kernel → Cpu → Prop
  | first {next : Kernel} {task site : Nat} {calling left : State}
      (run : taskRunFirstEverTask.run kernel = .ok (task, next))
      (calls : CallsTaskReturn next task calling)
      (returns : exec (taskReturn site) calling = some left) :
      SwitchStep kernel (.first task) next left.cpu
  | clock {next : Kernel} {user : Cpu} {stack : Nat → Nat} {site interrupt pointer task site' : Nat}
      {entered calling left : State} {frame : InterruptFrame}
      (userMode : Cpu.privilege user.cs = 3)
      (enters : exec (interruptEntry 0x20 site) (enterKernel user (kernelMemory kernel stack)) =
        some entered)
      (first : entered.dword .esp 4 = some interrupt)
      (second : entered.dword .esp 8 = some pointer)
      (points : frameAt entered.memory pointer = some frame)
      (run : (interruptHandler interrupt frame).run kernel = .ok (some task, next))
      (calls : CallsTaskReturn next task calling)
      (returns : exec (taskReturn site') calling = some left) :
      SwitchStep kernel (.clock user task) next left.cpu
  | systemCall {next : Kernel} {user : Cpu} {stack : Nat → Nat}
      {site command pointer res tmpRes : Nat} {entered returned left : State}
      {frame : InterruptFrame} (userMode : Cpu.privilege user.cs = 3)
      (enters : exec (isr80hWrapperEntry site) (enterKernel user (kernelMemory kernel stack)) =
        some entered)
      (first : entered.dword .esp 4 = some command)
      (second : entered.dword .esp 8 = some pointer)
      (points : frameAt entered.memory pointer = some frame)
      (run : (isr80hHandler (i32 command) frame).run kernel = .ok (res, next))
      (calls : ReturnsFromCall entered next res returned)
      (returns : exec (isr80hWrapperExit tmpRes) returned = some left) :
      SwitchStep kernel (.systemCall user) next left.cpu

/-- Runs of events after the first task was started. -/
inductive SwitchRun (start : Kernel) : List SwitchEvent → Kernel → Prop
  | start : SwitchRun start [] start
  | step {history : List SwitchEvent} {kernel next : Kernel} {event : SwitchEvent} {cpu : Cpu}
      (before : SwitchRun start history kernel)
      (order : history = [] ↔ ∃ task, event = .first task)
      (step : SwitchStep kernel event next cpu) : SwitchRun start (history ++ [event]) next

/-- The state of the processor that `task_init` sets up. -/
def taskInitCpu : Cpu := (Task.initial 0 0).registers.cpu

/-- The running task, and what each task was interrupted in by its last clock interrupt, or what
`task_init` set up. -/
structure Interrupted where
  running : Nat
  cpu : Nat → Cpu

def Interrupted.after (interrupted : Interrupted) : SwitchEvent → Interrupted
  | .first resumed => { interrupted with running := resumed }
  | .clock user resumed => ⟨resumed, Function.update interrupted.cpu interrupted.running user⟩
  | .systemCall _ => interrupted

def interruptedAfter (history : List SwitchEvent) : Interrupted :=
  history.foldl Interrupted.after ⟨0, fun _ => taskInitCpu⟩

theorem interruptedAfter_concat (history : List SwitchEvent) (event : SwitchEvent) :
    interruptedAfter (history ++ [event]) = (interruptedAfter history).after event := by
  rw [interruptedAfter, List.foldl_append]
  rfl

/-- The registers of the task are those of the given state of the processor. -/
def SavedAs (kernel : Kernel) (task : Nat) (cpu : Cpu) : Prop :=
  ∃ value, kernel.objs task = some (.task value) ∧ value.registers.cpu = cpu

/-- The tasks that do not run have their registers saved. -/
structure SwitchState (live : List Allocation) (memories : List TaskMemory)
    (history : List SwitchEvent) (kernel : Kernel) : Prop where
  tasks : TaskState kernelHeapRegion live memories kernel
  running : history ≠ [] → (interruptedAfter history).running = kernel.currentTask
  saved : ∀ memory ∈ memories, history = [] ∨ memory.task ≠ kernel.currentTask →
    SavedAs kernel memory.task ((interruptedAfter history).cpu memory.task)
  user : ∀ task, Cpu.privilege ((interruptedAfter history).cpu task).cs = 3

section Steps

variable {live : List Allocation} {memories : List TaskMemory} {history : List SwitchEvent}
  {kernel next : Kernel}

/-- `task_return` continues a task with its saved registers. -/
theorem CallsTaskReturn.resumes {task : Nat} {calling : State} {cpu : Cpu}
    (calls : CallsTaskReturn kernel task calling)
    (inv : KernelInvariant kernelHeapRegion live kernel) (saved : SavedAs kernel task cpu)
    (user : Cpu.privilege cpu.cs = 3) (site : Nat) :
    ∃ left, exec (taskReturn site) calling = some left ∧ left.cpu = enableInterrupts cpu := by
  obtain ⟨value, here, rfl⟩ := saved
  obtain ⟨stack, memory⟩ := calls.memory
  have present : (kernel.objs task).isSome := by
    rw [here]
    rfl
  have above := inv.obj_above present
  have start : kernelHeapRegion.start = 16777216 := rfl
  have below := calls.stack
  have holds := memory ▸ holdsRegisters_of_task inv here stack
  exact @taskReturn_exec _ _ _ holds calling.cpu
    (by unfold kernelStackTop taskRegistersOffset at *; omega) calls.room calls.argument
    (by rw [calls.code, show value.registers.cs = value.registers.cpu.cs from rfl, user]; decide)
    site

/-- After an event that resumes a task: the registers of every task are saved. -/
structure Resumed (live : List Allocation) (memories : List TaskMemory)
    (history : List SwitchEvent) (kernel : Kernel) (task : Nat) : Prop where
  tasks : TaskState kernelHeapRegion live memories kernel
  current : kernel.currentTask = task
  running : (interruptedAfter history).running = task
  saved : ∀ memory ∈ memories,
    SavedAs kernel memory.task ((interruptedAfter history).cpu memory.task)
  user : ∀ task, Cpu.privilege ((interruptedAfter history).cpu task).cs = 3

theorem Resumed.state {task : Nat} (resumed : Resumed live memories history kernel task) :
    SwitchState live memories history kernel :=
  ⟨resumed.tasks, fun _ => resumed.running.trans resumed.current.symm,
    fun memory member _ => resumed.saved memory member, resumed.user⟩

/-- The resumed task continues as it was interrupted. -/
theorem Resumed.cpu {task site : Nat} {calling left : State}
    (resumed : Resumed live memories history kernel task) (calls : CallsTaskReturn kernel task calling)
    (returns : exec (taskReturn site) calling = some left) (nonempty : memories ≠ []) :
    left.cpu = enableInterrupts ((interruptedAfter history).cpu task) := by
  have listed := resumed.tasks.list.current fun none => nonempty (List.map_eq_nil_iff.mp none)
  rw [resumed.current] at listed
  obtain ⟨memory, member, rfl⟩ := List.mem_map.mp listed
  obtain ⟨left', returns', same⟩ := calls.resumes resumed.tasks.invariant
    (resumed.saved memory member) (resumed.user _) site
  rw [returns] at returns'
  rw [Option.some.inj returns', same]

/-- The first task is started. -/
theorem SwitchState.first (before : SwitchState live memories [] kernel) {task : Nat}
    (run : taskRunFirstEverTask.run kernel = .ok (task, next)) :
    memories ≠ [] ∧ Resumed live memories [.first task] next task := by
  obtain ⟨rfl, notNull, directory, rfl⟩ := taskRunFirstEverTask_completed run
  have nonempty : memories ≠ [] := fun none =>
    notNull (before.tasks.list.currentNull.mpr (by rw [none]; rfl))
  have listed : kernel.taskHead ∈ memories.map TaskMemory.task := by
    rw [before.tasks.list.head]
    cases memories with
    | nil => exact absurd rfl nonempty
    | cons memory rest => exact List.mem_cons_self
  refine ⟨nonempty, before.tasks.switch rfl rfl rfl rfl listed, rfl, rfl, ?_, before.user⟩
  exact fun memory member => before.saved memory member (.inl rfl)

/-- Saving the registers of the current task. -/
theorem SwitchState.save (before : SwitchState live memories history kernel)
    (started : history ≠ []) {value : Task}
    (here : kernel.objs kernel.currentTask = some (.task value)) (registers : Registers) :
    memories ≠ [] ∧
      TaskState kernelHeapRegion live memories (kernel.setObj kernel.currentTask
        (some (.task { value with registers := registers }))) ∧
      ∀ memory ∈ memories, SavedAs (kernel.setObj kernel.currentTask
          (some (.task { value with registers := registers }))) memory.task
        (Function.update (interruptedAfter history).cpu (interruptedAfter history).running
          registers.cpu memory.task) := by
  have nonempty : memories ≠ [] := by
    rintro rfl
    have null := before.tasks.list.currentNull.mpr rfl
    rw [null, before.tasks.invariant.null] at here
    cases here
  refine ⟨nonempty, before.tasks.setTask here rfl rfl rfl, fun memory member => ?_⟩
  rw [before.running started]
  by_cases same : memory.task = kernel.currentTask
  · rw [same, Function.update_self]
    exact ⟨_, Kernel.setObj_objs_self .., rfl⟩
  · rw [Function.update_of_ne same]
    obtain ⟨value', there, saved⟩ := before.saved memory member (.inr same)
    exact ⟨value', (Kernel.setObj_objs_of_ne _ _ same).trans there, saved⟩

/-- What the handler of an interrupt from the user mode gets. -/
theorem handler_arguments {user : Cpu} {argument first pointer : Nat} {entered : State}
    {frame : InterruptFrame} (arrived : Entered user argument entered)
    (firstHere : entered.dword .esp 4 = some first)
    (second : entered.dword .esp 8 = some pointer)
    (points : frameAt entered.memory pointer = some frame) :
    first = argument ∧ frame = userFrame user := by
  rw [arrived.first] at firstHere
  rw [arrived.second] at second
  cases second
  rw [arrived.frame] at points
  exact ⟨(Option.some.inj firstHere).symm, (Option.some.inj points).symm⟩

/-- The clock interrupts the running task, and the next one is resumed. -/
theorem SwitchState.clock (before : SwitchState live memories history kernel)
    (started : history ≠ []) {user : Cpu} (userMode : Cpu.privilege user.cs = 3) {task : Nat}
    (run : (interruptHandler 0x20 (userFrame user)).run kernel = .ok (some task, next)) :
    memories ≠ [] ∧ Resumed live memories (history ++ [.clock user task]) next task := by
  obtain ⟨value, _, _, directory, found, here, same, following, table, rfl⟩ :=
    interruptHandler_completed (by decide) run
  cases same
  obtain ⟨nonempty, tasks, saved⟩ := before.save started here (userFrame user).registers
  have list := before.tasks.list
  have listed := list.current fun none => nonempty (List.map_eq_nil_iff.mp none)
  obtain ⟨position, inside, at'⟩ := List.getElem_of_mem listed
  have member := List.mem_of_getElem?
    (list.getNext ((List.getElem?_eq_getElem inside).trans (congrArg some at')) here)
  rw [← following] at member
  refine ⟨nonempty, tasks.switch rfl rfl rfl rfl member, rfl, ?_, ?_, ?_⟩
  · rw [interruptedAfter_concat]
    rfl
  · rw [interruptedAfter_concat]
    exact saved
  · rw [interruptedAfter_concat]
    intro other
    change Cpu.privilege (Function.update (interruptedAfter history).cpu
      (interruptedAfter history).running user other).cs = 3
    by_cases same : other = (interruptedAfter history).running
    · rw [same, Function.update_self]
      exact userMode
    · rw [Function.update_of_ne same]
      exact before.user other

/-- A system call saves the registers of the running task, which continues. -/
theorem SwitchState.systemCall (before : SwitchState live memories history kernel)
    (started : history ≠ []) {user : Cpu} {command : Int} {frame : InterruptFrame} {res : Nat}
    (run : (isr80hHandler command frame).run kernel = .ok (res, next)) :
    SwitchState live memories (history ++ [.systemCall user]) next := by
  obtain ⟨_, value, directory, here, rfl⟩ := isr80hHandler_completed run
  obtain ⟨nonempty, tasks, saved⟩ := before.save started here frame.registers
  have listed := before.tasks.list.current fun none => nonempty (List.map_eq_nil_iff.mp none)
  refine ⟨tasks.switch rfl rfl rfl rfl listed, ?_, ?_, ?_⟩
  · rw [interruptedAfter_concat]
    exact fun _ => before.running started
  · rw [interruptedAfter_concat]
    intro memory member other
    have apart : memory.task ≠ kernel.currentTask := other.resolve_left
      (List.append_ne_nil_of_right_ne_nil _ (List.cons_ne_nil _ _))
    obtain ⟨value', there, same⟩ := saved memory member
    rw [before.running started, Function.update_of_ne apart] at same
    exact ⟨value', there, same⟩
  · rw [interruptedAfter_concat]
    exact before.user

/-- **One event.** -/
theorem SwitchState.step (before : SwitchState live memories history kernel) {event : SwitchEvent}
    (order : history = [] ↔ ∃ task, event = .first task) {cpu : Cpu}
    (step : SwitchStep kernel event next cpu) :
    SwitchState live memories (history ++ [event]) next ∧
      ∀ task, event.resumed = some task →
        cpu = enableInterrupts ((interruptedAfter (history ++ [event])).cpu task) := by
  cases step with
  | first run calls returns =>
      obtain rfl := order.mpr ⟨_, rfl⟩
      obtain ⟨nonempty, resumed⟩ := before.first run
      refine ⟨resumed.state, fun task same => ?_⟩
      cases same
      exact resumed.cpu calls returns nonempty
  | clock userMode enters first second points run calls returns =>
      rw [interruptEntry_exec] at enters
      obtain ⟨rfl, rfl⟩ := handler_arguments (Option.some.inj enters ▸ entered_of_pushes ..)
        first second points
      obtain ⟨nonempty, resumed⟩ := before.clock (fun none => nomatch order.mp none) userMode run
      refine ⟨resumed.state, fun task same => ?_⟩
      cases same
      exact resumed.cpu calls returns nonempty
  | systemCall userMode enters first second points run calls returns =>
      exact ⟨before.systemCall (fun none => nomatch order.mp none) run, nofun⟩

end Steps

section Runs

variable {live : List Allocation} {start kernel : Kernel} {tasks : List Nat}

/-- New tasks have the registers that `task_init` sets up. -/
theorem TaskRun.savedAs (inv : KernelInvariant kernelHeapRegion live start)
    (empty : TaskList [] start) (run : TaskRun (fun _ _ => False) start tasks kernel) :
    ∃ live' memories, tasks = memories.map TaskMemory.task ∧
      TaskState kernelHeapRegion live' memories kernel ∧
      ∀ task ∈ tasks, SavedAs kernel task taskInitCpu := by
  induction run with
  | start => exact ⟨live, [], rfl, ⟨inv, .nil, nofun, empty⟩, nofun⟩
  | new _ run ih =>
      obtain ⟨live', memories, rfl, state, saved⟩ := ih
      obtain ⟨live'', memory, rfl, made⟩ := taskNew_spec state run
      refine ⟨live'', memories ++ [memory], by rw [List.map_append, List.map_singleton],
        made.state, fun task member => ?_⟩
      rcases List.mem_append.mp member with old | last
      · obtain ⟨other, listed, rfl⟩ := List.mem_map.mp old
        obtain ⟨value, pages, holds⟩ := state.holds other listed
        obtain ⟨value', here, same⟩ := saved _ old
        rw [holds.task] at here
        cases here
        obtain ⟨_, _, after⟩ := made.task other listed _ _ holds
        exact ⟨_, after.task, same⟩
      · rw [List.mem_singleton.mp last]
        obtain ⟨_, _, holds⟩ := made.made
        exact ⟨_, holds.task, rfl⟩
  | free _ _ may _ _ => exact may.elim

/-- The tasks before the first one is started. -/
theorem SwitchState.booted {memories : List TaskMemory}
    (state : TaskState kernelHeapRegion live memories kernel)
    (saved : ∀ task ∈ memories.map TaskMemory.task, SavedAs kernel task taskInitCpu) :
    SwitchState live memories [] kernel :=
  ⟨state, fun more => absurd rfl more, fun _ member _ => saved _ (List.mem_map_of_mem member),
    fun _ => (by decide : Cpu.privilege taskInitCpu.cs = 3)⟩

/-- The tasks over a run. -/
theorem SwitchRun.state (inv : KernelInvariant kernelHeapRegion live start)
    (empty : TaskList [] start) {booted : Kernel}
    (made : TaskRun (fun _ _ => False) start tasks booted) {history : List SwitchEvent}
    (run : SwitchRun booted history kernel) :
    ∃ live' memories, SwitchState live' memories history kernel := by
  induction run with
  | start =>
      obtain ⟨live', memories, rfl, state, saved⟩ := made.savedAs inv empty
      exact ⟨live', memories, .booted state saved⟩
  | step _ order step ih =>
      obtain ⟨live', memories, state⟩ := ih
      exact ⟨live', memories, (state.step order step).1⟩

/-- **Resuming a task.** In every run of clock interrupts and system calls a task is resumed with
the state of the processor in which the last clock interrupt took it, or in which `task_init` set
it up, and with the interrupts enabled. -/
theorem resumed_cpu (inv : KernelInvariant kernelHeapRegion live start)
    (empty : TaskList [] start) {booted : Kernel}
    (made : TaskRun (fun _ _ => False) start tasks booted) {history : List SwitchEvent}
    (run : SwitchRun booted history kernel) {event : SwitchEvent} {next : Kernel} {cpu : Cpu}
    (order : history = [] ↔ ∃ task, event = .first task) (step : SwitchStep kernel event next cpu)
    {task : Nat} (resumed : event.resumed = some task) :
    cpu = enableInterrupts ((interruptedAfter (history ++ [event])).cpu task) := by
  obtain ⟨live', memories, state⟩ := run.state inv empty made
  exact (state.step order step).2 task resumed

end Runs

section Progress

variable {live : List Allocation} {memories : List TaskMemory} {history : List SwitchEvent}
  {kernel : Kernel}

theorem callsTaskReturn_exists (kernel : Kernel) (task : Nat) :
    ∃ calling, CallsTaskReturn kernel task calling :=
  ⟨⟨⟨0, 0, 0, kernelStackTop - 512, 0, 0, 0, 0, 0, kernelCodeSelector, 0, kernelDataSelector⟩,
      kernelMemory kernel fun _ => task + taskRegistersOffset⟩,
    rfl, (by decide : 32 ≤ kernelStackTop - 512), (by decide : kernelStackTop - 512 < kernelStackTop),
    ⟨_, rfl⟩, by
      have inside : kernelStackTop - 512 + 4 < kernelStackTop := by decide
      dsimp only
      rw [kernelMemory, if_pos inside]⟩

theorem Resumed.left {task : Nat} (resumed : Resumed live memories history kernel task)
    (nonempty : memories ≠ []) (site : Nat) : ∃ calling left,
      CallsTaskReturn kernel task calling ∧ exec (taskReturn site) calling = some left := by
  have listed := resumed.tasks.list.current fun none => nonempty (List.map_eq_nil_iff.mp none)
  rw [resumed.current] at listed
  obtain ⟨memory, member, rfl⟩ := List.mem_map.mp listed
  obtain ⟨calling, calls⟩ := callsTaskReturn_exists kernel memory.task
  obtain ⟨left, returns, _⟩ := calls.resumes resumed.tasks.invariant
    (resumed.saved memory member) (resumed.user _) site
  exact ⟨calling, left, calls, returns⟩

/-- The first of the new tasks is started. -/
theorem SwitchState.first_step (before : SwitchState live memories [] kernel)
    (nonempty : memories ≠ []) (paged : KernelPaged live kernel) : ∃ task next cpu,
      SwitchStep kernel (.first task) next cpu ∧ Resumed live memories [.first task] next task ∧
        KernelPaged live next := by
  have head := before.tasks.list.head
  have notNull : kernel.currentTask ≠ 0 := fun null =>
    nonempty (List.map_eq_nil_iff.mp (before.tasks.list.currentNull.mp null))
  obtain ⟨memory, rest, rfl⟩ := List.exists_cons_of_ne_nil nonempty
  obtain ⟨_, _, holds⟩ := before.tasks.holds memory List.mem_cons_self
  have same : kernel.taskHead = memory.task := head
  have run : taskRunFirstEverTask.run kernel = .ok (memory.task, { kernel with
      currentTask := memory.task, currentDirectory := memory.tables.directory }) := by
    have readHead : (Exec.read Kernel.taskHead : K Nat).run kernel = .ok (memory.task, kernel) := by
      rw [Exec.run_read, same]
    rw [taskRunFirstEverTask, Exec.bind_of_ok (Exec.run_read _ _), if_neg notNull,
      Exec.bind_of_ok readHead, Exec.bind_of_ok (taskSwitch_of_holds holds), Exec.run_pure]
  obtain ⟨_, resumed⟩ := before.first run
  obtain ⟨_, _, calls, returns⟩ := resumed.left nonempty 0
  exact ⟨_, _, _, .first run calls returns, resumed, paged⟩

/-- The clock always resumes a task. -/
theorem SwitchState.clock_step (before : SwitchState live memories history kernel)
    (started : history ≠ []) (nonempty : memories ≠ []) (paged : KernelPaged live kernel)
    {user : Cpu} (userMode : Cpu.privilege user.cs = 3) : ∃ task next cpu,
      SwitchStep kernel (.clock user task) next cpu ∧
        Resumed live memories (history ++ [.clock user task]) next task ∧ KernelPaged live next := by
  obtain ⟨task, next, run⟩ := clock_progress before.tasks nonempty paged (userFrame user)
  obtain ⟨_, resumed⟩ := before.clock started userMode run
  obtain ⟨_, _, calls, returns⟩ := resumed.left nonempty 0
  have arrived := entered_of_pushes user (kernelMemory kernel fun _ => 0) 0x20 0
  exact ⟨task, next, _, .clock userMode (interruptEntry_exec user _ 0x20 0) arrived.first
    arrived.second arrived.frame run calls returns, resumed,
    interruptHandler_paged paged (by decide) run⟩

/-- A new task leaves the page directory of the kernel. -/
theorem KernelPaged.new {live' : List Allocation} {next : Kernel} {process task : Nat}
    (paged : KernelPaged live kernel) (state : TaskState kernelHeapRegion live memories kernel)
    (grown : live ⊆ live') (run : (taskNew process).run kernel = .ok (task, next)) :
    KernelPaged live' next := by
  obtain ⟨_, _, _, made⟩ := taskNew_spec state run
  obtain ⟨allocation, member, same, chunk, here⟩ := paged
  have chunkKept : next.kernelChunk = kernel.kernelChunk := by rw [made.globals]
  have kept := made.kept allocation member fun task => by
    rw [same, here]
    nofun
  refine ⟨allocation, grown member, by rw [chunkKept, same], chunk, ?_⟩
  rw [chunkKept, ← same, kept, same, here]

/-- Two tasks in a fresh kernel. -/
theorem bootSwitching : ∃ live start booted live' first second,
    KernelInvariant kernelHeapRegion live start ∧ TaskList [] start ∧
    TaskRun (fun _ _ => False) start [first.task, second.task] booted ∧
    KernelPaged live' booted ∧ SwitchState live' [first, second] [] booted := by
  obtain ⟨live, kernel, none, packed, paged⟩ := bootPaged
  obtain ⟨process, start, _, _, packed₀, placed⟩ := kmalloc_packed packed
    (show 1 ≤ sizeofProcess by decide) (by decide) (show blocksFor sizeofProcess = 3 by decide)
    (by decide) (.process {})
  have globals := placed.globals
  have state₀ : TaskState kernelHeapRegion _ [] start :=
    none.state.tasks.extended ((Extended.refl none.invariant).placed placed)
  have paged₀ : KernelPaged (⟨process, sizeofProcess⟩ :: live) start := by
    obtain ⟨allocation, member, same, chunk, here⟩ := paged
    have chunkKept : start.kernelChunk = kernel.kernelChunk := by rw [globals]
    refine ⟨allocation, List.mem_cons_of_mem _ member, by rw [chunkKept, same], chunk, ?_⟩
    rw [chunkKept, ← same, placed.kept allocation member, same, here]
  obtain ⟨live₁, first, middle, run₁, grown₁, processHere, state₁, packed₁⟩ := taskNew_packed state₀
    packed₀ List.mem_cons_self placed.present (by decide)
  have paged₁ := paged₀.new state₀ grown₁ run₁
  obtain ⟨live₂, second, booted, run₂, grown₂, _, state₂, _⟩ := taskNew_packed state₁ packed₁
    (grown₁ List.mem_cons_self) processHere (by decide)
  have made : TaskRun (fun _ _ => False) start [first.task, second.task] booted :=
    (TaskRun.start.new run₁).new run₂
  obtain ⟨_, _, _, _, saved⟩ := made.savedAs placed.invariant state₀.list
  exact ⟨_, start, booted, live₂, first, second, placed.invariant, state₀.list, made,
    paged₁.new state₁ grown₂ run₂, .booted state₂ saved⟩

theorem clock_not_first (user : Cpu) (resumed : Nat) :
    ¬ ∃ task, SwitchEvent.clock user resumed = .first task := by
  rintro ⟨_, same⟩
  cases same

/-- Two tasks take turns. -/
theorem resumed_cpu_boot : ∃ live start tasks booted history kernel event next cpu task,
    KernelInvariant kernelHeapRegion live start ∧ TaskList [] start ∧
    TaskRun (fun _ _ => False) start tasks booted ∧ SwitchRun booted history kernel ∧
    SwitchStep kernel event next cpu ∧ event.resumed = some task ∧ history.length = 2 ∧
    cpu = enableInterrupts ((interruptedAfter (history ++ [event])).cpu task) := by
  obtain ⟨live, start, booted, live', first, second, inv, empty, made, paged, state⟩ :=
    bootSwitching
  have nonempty : [first, second] ≠ [] := List.cons_ne_nil _ _
  obtain ⟨a, k₁, _, step₁, resumed₁, paged₁⟩ := state.first_step nonempty paged
  obtain ⟨b, k₂, _, step₂, resumed₂, paged₂⟩ := resumed₁.state.clock_step (List.cons_ne_nil _ _)
    nonempty paged₁ (show Cpu.privilege (⟨1, 2, 3, 0x3FE000, 4, 5, 6, 7, 0x400010, 0x1b, 0, 0x23⟩ :
      Cpu).cs = 3 by decide)
  obtain ⟨c, k₃, cpu, step₃, _, _⟩ := resumed₂.state.clock_step
    (List.append_ne_nil_of_right_ne_nil _ (List.cons_ne_nil _ _)) nonempty paged₂
    (show Cpu.privilege (⟨7, 6, 5, 0x3FD000, 4, 3, 2, 1, 0x400020, 0x1b, 0, 0x23⟩ : Cpu).cs = 3 by
      decide)
  have run : SwitchRun booted ([] ++ [_] ++ [_]) k₂ :=
    (SwitchRun.start.step (iff_of_true rfl ⟨a, rfl⟩) step₁).step
      (iff_of_false (List.cons_ne_nil _ _) (clock_not_first _ _)) step₂
  exact ⟨live, start, _, booted, _, k₂, _, k₃, cpu, c, inv, empty, made, run, step₃, rfl, rfl,
    resumed_cpu inv empty made run (iff_of_false (List.cons_ne_nil _ _) (clock_not_first _ _)) step₃ rfl⟩

end Progress

end Peachos
