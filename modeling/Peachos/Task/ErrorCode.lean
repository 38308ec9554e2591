import Peachos.Task.Switching

/-! # Exceptions with an error code

For some exceptions the processor pushes an error code below the state of the program. The entries
of `idt.asm` leave it there, so the handler finds every field of the program's state one place too
high: the error code as `ip`, and `ip` as `cs`. The task goes on to be resumed with what was saved
from there (`trapped_resumes`), which is the kernel mode at the error code if the exception came
from an address that ends in the selector of the kernel code. From other addresses `iret` would load
another code segment or none; exceptions there are left out.
-/

namespace Peachos

open CInt X86

/-- The exceptions with an error code. -/
def HasErrorCode (vector : Nat) : Prop := vector = 8 ∨ 10 ≤ vector ∧ vector ≤ 14 ∨ vector = 17

/-- The processor on an interrupt in the user mode, with an error code or without. -/
def enterKernelWith (user : Cpu) (code : Option Nat) (memory : Memory) : State :=
  match code with
  | none => enterKernel user memory
  | some code => (enterKernel user memory).push code

/-- The frame that the handler finds. -/
def trapFrame (user : Cpu) : Option Nat → InterruptFrame
  | none => userFrame user
  | some code =>
      { edi := user.edi
        esi := user.esi
        ebp := user.ebp
        reserved := kernelStackTop - 24
        ebx := user.ebx
        edx := user.edx
        ecx := user.ecx
        eax := user.eax
        ip := code
        cs := user.eip
        flags := user.cs
        esp := user.eflags
        ss := user.esp }

section Frame

/-- The dwords on the kernel stack when the handler of an exception with an error code is
called. -/
def codedStack (user : Cpu) (code argument site : Nat) : List Nat :=
  [user.ss, user.esp, user.eflags, user.cs, user.eip, code, user.eax, user.ecx, user.edx, user.ebx,
    kernelStackTop - 24, user.ebp, user.esi, user.edi, kernelStackTop - 56, argument, site]

/-- The arguments of a handler: the number of the interrupt and the frame. -/
structure Handed (user : Cpu) (code : Option Nat) (argument : Nat) (state : State) : Prop where
  first : state.dword .esp 4 = some argument
  second : ∃ pointer, state.dword .esp 8 = some pointer ∧
    frameAt state.memory pointer = some (trapFrame user code)

theorem pushad_coded (user : Cpu) (code : Nat) (memory : Memory) :
    pushad ((enterKernel user memory).push code) = pushes [user.ss, user.esp, user.eflags, user.cs,
      user.eip, code, user.eax, user.ecx, user.edx, user.ebx, kernelStackTop - 24, user.ebp,
      user.esi, user.edi] (emptyStack user memory) := by
  have esp : ((enterKernel user memory).push code).cpu.esp = kernelStackTop - 24 :=
    pushes_esp [user.ss, user.esp, user.eflags, user.cs, user.eip, code] (emptyStack user memory)
  rw [pushad, esp]
  rfl

theorem coded_eq_pushes (user : Cpu) (code : Nat) (memory : Memory) (argument site : Nat) :
    (((pushad ((enterKernel user memory).push code)).push
      (pushad ((enterKernel user memory).push code)).cpu.esp).push argument).push site =
        pushes (codedStack user code argument site) (emptyStack user memory) := by
  have esp : (pushad ((enterKernel user memory).push code)).cpu.esp = kernelStackTop - 56 := by
    rw [pushad_coded, pushes_esp]
    rfl
  rw [esp, pushad_coded]
  rfl

theorem interruptEntry_exec_coded (user : Cpu) (code : Nat) (memory : Memory) (number site : Nat) :
    exec (interruptEntry number site) ((enterKernel user memory).push code) =
      some (pushes (codedStack user code number site) (emptyStack user memory)) := by
  have first : step .pushad ((enterKernel user memory).push code) =
      some (pushad ((enterKernel user memory).push code)) := rfl
  rw [interruptEntry, exec_cons first, ← coded_eq_pushes]
  generalize pushad ((enterKernel user memory).push code) = state
  rfl

theorem handed_coded (user : Cpu) (code : Nat) (memory : Memory) (argument site : Nat) :
    Handed user (some code) argument
      (pushes (codedStack user code argument site) (emptyStack user memory)) := by
  have esp : (pushes (codedStack user code argument site) (emptyStack user memory)).cpu.esp =
      kernelStackTop - 68 := pushes_esp _ _
  have read : ∀ (index : Nat) (inside : index < 17),
      (pushes (codedStack user code argument site) (emptyStack user memory)).memory
        (kernelStackTop - 4 * (index + 1)) = some (codedStack user code argument site)[index] :=
    fun index inside => pushes_memory _ inside (by decide : 4 * 17 ≤ kernelStackTop)
  generalize pushes (codedStack user code argument site) (emptyStack user memory) = state
    at esp read
  refine ⟨?_, kernelStackTop - 56, ?_, ?_⟩
  · rw [State.dword, Cpu.get, esp]
    exact read 15 (by decide)
  · rw [State.dword, Cpu.get, esp]
    exact read 14 (by decide)
  · have edi : state.memory (kernelStackTop - 56) = some user.edi := read 13 (by decide)
    have esi : state.memory (kernelStackTop - 56 + 4) = some user.esi := read 12 (by decide)
    have ebp : state.memory (kernelStackTop - 56 + 8) = some user.ebp := read 11 (by decide)
    have reserved : state.memory (kernelStackTop - 56 + 12) = some (kernelStackTop - 24) :=
      read 10 (by decide)
    have ebx : state.memory (kernelStackTop - 56 + 16) = some user.ebx := read 9 (by decide)
    have edx : state.memory (kernelStackTop - 56 + 20) = some user.edx := read 8 (by decide)
    have ecx : state.memory (kernelStackTop - 56 + 24) = some user.ecx := read 7 (by decide)
    have eax : state.memory (kernelStackTop - 56 + 28) = some user.eax := read 6 (by decide)
    have ip : state.memory (kernelStackTop - 56 + 32) = some code := read 5 (by decide)
    have cs : state.memory (kernelStackTop - 56 + 36) = some user.eip := read 4 (by decide)
    have flags : state.memory (kernelStackTop - 56 + 40) = some user.cs := read 3 (by decide)
    have esp : state.memory (kernelStackTop - 56 + 44) = some user.eflags := read 2 (by decide)
    have ss : state.memory (kernelStackTop - 56 + 48) = some user.esp := read 1 (by decide)
    simp only [frameAt, edi, esi, ebp, reserved, ebx, edx, ecx, eax, ip, cs, flags, esp, ss,
      Option.bind_eq_bind, Option.bind_some]
    rfl

/-- **The entry of an interrupt** hands the frame to the handler. -/
theorem interruptEntry_hands {user : Cpu} {code : Option Nat} {memory : Memory} {number site : Nat}
    {entered : State}
    (enters : exec (interruptEntry number site) (enterKernelWith user code memory) =
      some entered) : Handed user code number entered := by
  cases code with
  | none =>
      have run := (interruptEntry_exec user memory number site).symm.trans enters
      have arrived := entered_of_pushes user memory number site
      rw [Option.some.inj run] at arrived
      exact ⟨arrived.first, _, arrived.second, arrived.frame⟩
  | some code =>
      have run := (interruptEntry_exec_coded user code memory number site).symm.trans enters
      have arrived := handed_coded user code memory number site
      rwa [Option.some.inj run] at arrived

end Frame

section Return

variable {registers : Registers} {memory : Memory} {address : Nat}

/-- A state of the processor that goes on as another one on some stack. -/
structure SameButStack (saved cpu : Cpu) : Prop where
  same : cpu = { saved with esp := cpu.esp, ss := cpu.ss }
  stack : cpu.esp < kernelStackTop

/-- **`task_return` to the kernel mode** keeps the stack of the kernel. -/
theorem taskReturn_exec_inner (holds : HoldsRegisters registers memory address) {cpu : Cpu}
    (below : cpu.esp < address) (room : 32 ≤ cpu.esp) (stack : cpu.esp < kernelStackTop)
    (argument : memory (cpu.esp + 4) = some address)
    (inner : Cpu.privilege registers.cs = Cpu.privilege cpu.cs) (site : Nat) :
    ∃ state, exec (taskReturn site) ⟨cpu, memory⟩ = some state ∧
      SameButStack (enableInterrupts registers.cpu) state.cpu := by
  obtain ⟨⟨between, pushed⟩, frame, returning⟩ :=
    taskReturnFrame_exec holds below (by omega) argument site
  have esp := returning.pushed.esp
  dsimp only [returnStack, List.length] at esp
  obtain ⟨base, betweenEsp⟩ : ∃ base, between.esp = base + 4 := ⟨between.esp - 4, by omega⟩
  -- The dwords on the stack, from its top on.
  have read : ∀ (index disp : Nat) (inside : index < 7), disp + 4 * (index + 1) = 28 →
      pushed (base + 4 + disp) =
        some ((returnStack registers address site).get ⟨index, inside⟩) := by
    intro index disp inside here
    have dword := @Pushed.dword _ _ _ returning.pushed index disp inside here
    rwa [State.dword, Cpu.get, betweenEsp] at dword
  have above : ∀ other, base < other →
      Function.update pushed base (some between.ebp) other = pushed other :=
    fun other after => Function.update_of_ne (Nat.ne_of_gt after) ..
  have restored := @restoreGeneralPurposeRegisters_exec _ _ _ returning.holds between base site
    betweenEsp (by omega) (read 6 0 (by decide) rfl) (read 5 4 (by decide) rfl)
  have returned := @iret_inner ⟨{ between with
      edi := registers.edi, esi := registers.esi, ebp := registers.ebp, ebx := registers.ebx,
      edx := registers.edx, ecx := registers.ecx, eax := registers.eax, esp := base + 8 + 4 },
    Function.update pushed base (some between.ebp)⟩ registers.ip registers.cs
    (registers.flags ||| 0x200)
    ((above (base + 12) (by omega)).trans (read 4 8 (by decide) rfl))
    ((above (base + 16) (by omega)).trans (read 3 12 (by decide) rfl))
    ((above (base + 20) (by omega)).trans (read 2 16 (by decide) rfl))
    (by rw [show between.cs = cpu.cs from returning.cs]; exact inner)
  obtain ⟨final, last, continued⟩ : ∃ final, exec [.add .esp 4, .iret] ⟨{ between with
      edi := registers.edi, esi := registers.esi, ebp := registers.ebp, ebx := registers.ebx,
      edx := registers.edx, ecx := registers.ecx, eax := registers.eax, esp := base + 8 },
        Function.update pushed base (some between.ebp)⟩ = some final ∧
          SameButStack (enableInterrupts registers.cpu) final.cpu :=
    ⟨_, exec_step rfl (exec_step returned rfl), rfl, show base + 8 + 4 + 12 < kernelStackTop by omega⟩
  refine ⟨final, ?_, continued⟩
  rw [taskReturn, exec_append, frame, Option.bind_some, exec_append, restored, Option.bind_some,
    last]

end Return

/-- What a program was in when it was interrupted for the last time, with the error code, or
nothing if it has not run yet; and the task that runs. -/
structure Trapped where
  running : Nat
  last : Nat → Option (Cpu × Option Nat)

/-- What happened: the first task was started, an interrupt or an exception came, with an error code
or without, and a task was resumed, or the user mode made a system call. -/
inductive TrapEvent where
  | first (resumed : Nat)
  | interrupt (vector : Nat) (user : Cpu) (code : Option Nat) (resumed : Nat)
  | systemCall (user : Cpu)

def TrapEvent.resumed : TrapEvent → Option Nat
  | .first resumed => some resumed
  | .interrupt _ _ _ resumed => some resumed
  | .systemCall _ => none

def Trapped.after (trapped : Trapped) : TrapEvent → Trapped
  | .first resumed => { trapped with running := resumed }
  | .interrupt _ user code resumed =>
      ⟨resumed, Function.update trapped.last trapped.running (some (user, code))⟩
  | .systemCall _ => trapped

def trappedAfter (history : List TrapEvent) : Trapped :=
  history.foldl Trapped.after ⟨0, fun _ => none⟩

theorem trappedAfter_concat (history : List TrapEvent) (event : TrapEvent) :
    trappedAfter (history ++ [event]) = (trappedAfter history).after event := by
  rw [trappedAfter, List.foldl_append]
  rfl

/-- One event, with the state of the processor after it. An exception with an error code comes from
an address that ends in the selector of the kernel code. -/
inductive TrapStep (kernel : Kernel) : TrapEvent → Kernel → Cpu → Prop
  | first {next : Kernel} {task site : Nat} {calling left : State}
      (run : taskRunFirstEverTask.run kernel = .ok (task, next))
      (calls : CallsTaskReturn next task calling)
      (returns : exec (taskReturn site) calling = some left) :
      TrapStep kernel (.first task) next left.cpu
  | interrupt {next : Kernel} {vector : Nat} {user : Cpu} {code : Option Nat} {stack : Nat → Nat}
      {site interrupt pointer task site' : Nat} {entered calling left : State}
      {frame : InterruptFrame} (userMode : Cpu.privilege user.cs = 3)
      (positive : 1 ≤ vector) (callback : vector ≤ 0x20)
      (coded : code ≠ none → HasErrorCode vector ∧ user.eip % 65536 = kernelCodeSelector)
      (enters : exec (interruptEntry vector site)
        (enterKernelWith user code (kernelMemory kernel stack)) = some entered)
      (first : entered.dword .esp 4 = some interrupt)
      (second : entered.dword .esp 8 = some pointer)
      (points : frameAt entered.memory pointer = some frame)
      (run : (interruptHandler interrupt frame).run kernel = .ok (some task, next))
      (calls : CallsTaskReturn next task calling)
      (returns : exec (taskReturn site') calling = some left) :
      TrapStep kernel (.interrupt vector user code task) next left.cpu
  | systemCall {next : Kernel} {user : Cpu} {stack : Nat → Nat}
      {site command pointer res tmpRes : Nat} {entered returned left : State}
      {frame : InterruptFrame} (userMode : Cpu.privilege user.cs = 3)
      (enters : exec (isr80hWrapperEntry site) (enterKernel user (kernelMemory kernel stack)) =
        some entered)
      (first : entered.dword .esp 4 = some command)
      (second : entered.dword .esp 8 = some pointer)
      (points : frameAt entered.memory pointer = some frame)
      (run : (isr80hHandler (i32 command) frame).run kernel = .ok (res, next))
      (calls : ReturnsFromCall entered next res returned)
      (returns : exec (isr80hWrapperExit tmpRes) returned = some left) :
      TrapStep kernel (.systemCall user) next left.cpu

/-- Runs of events after the first task was started. -/
inductive TrapRun (start : Kernel) : List TrapEvent → Kernel → Prop
  | start : TrapRun start [] start
  | step {history : List TrapEvent} {kernel next : Kernel} {event : TrapEvent} {cpu : Cpu}
      (before : TrapRun start history kernel)
      (order : history = [] ↔ ∃ task, event = .first task)
      (step : TrapStep kernel event next cpu) : TrapRun start (history ++ [event]) next

/-- The state that the handler took for the program's. -/
def savedCpu : Option (Cpu × Option Nat) → Cpu
  | none => taskInitCpu
  | some (user, code) => (trapFrame user code).registers.cpu

/-- How a task is resumed after its last interrupt: exactly as it was, or, after an exception with
an error code, in the kernel mode at the error code, and on the stack of the kernel. -/
def ResumesAs (last : Option (Cpu × Option Nat)) (cpu : Cpu) : Prop :=
  match last with
  | none => cpu = enableInterrupts taskInitCpu
  | some (user, none) => cpu = enableInterrupts user
  | some (user, some code) => cpu.eip = code ∧ cpu.cs % 65536 = kernelCodeSelector ∧
      SameButStack { user with eip := code, cs := user.eip, eflags := user.cs ||| 0x200 } cpu

/-- The last interrupt came from the user mode; with an error code, from an address that ends in
the selector of the kernel code. -/
def FromUser (last : Option (Cpu × Option Nat)) : Prop :=
  ∀ user code, last = some (user, code) → Cpu.privilege user.cs = 3 ∧
    (code ≠ none → user.eip % 65536 = kernelCodeSelector)

/-- The tasks that do not run have their registers saved. -/
structure TrapState (live : List Allocation) (memories : List TaskMemory)
    (history : List TrapEvent) (kernel : Kernel) : Prop where
  tasks : TaskState kernelHeapRegion live memories kernel
  running : history ≠ [] → (trappedAfter history).running = kernel.currentTask
  saved : ∀ memory ∈ memories, history = [] ∨ memory.task ≠ kernel.currentTask →
    SavedAs kernel memory.task (savedCpu ((trappedAfter history).last memory.task))
  user : ∀ task, FromUser ((trappedAfter history).last task)

section Steps

variable {live : List Allocation} {memories : List TaskMemory} {history : List TrapEvent}
  {kernel next : Kernel}

/-- `task_return` of a task whose registers were saved by its last interrupt. -/
theorem CallsTaskReturn.resumesAs {task : Nat} {calling : State}
    (calls : CallsTaskReturn kernel task calling)
    (inv : KernelInvariant kernelHeapRegion live kernel) {last : Option (Cpu × Option Nat)}
    (saved : SavedAs kernel task (savedCpu last)) (user : FromUser last) (site : Nat) :
    ∃ left, exec (taskReturn site) calling = some left ∧ ResumesAs last left.cpu := by
  match last with
  | none => exact calls.resumes inv saved (by decide) site
  | some (cpu, none) => exact calls.resumes inv saved (user cpu none rfl).1 site
  | some (cpu, some code) =>
      have selector := (user cpu (some code) rfl).2 nofun
      obtain ⟨value, here, same⟩ := saved
      obtain ⟨stack, memory⟩ := calls.memory
      have above := inv.obj_above (show (kernel.objs task).isSome by rw [here]; rfl)
      have start : kernelHeapRegion.start = 16777216 := rfl
      have below := calls.stack
      have holds := memory ▸ holdsRegisters_of_task inv here stack
      have cs : value.registers.cs = cpu.eip := congrArg Cpu.cs same
      obtain ⟨left, returns, continued⟩ := @taskReturn_exec_inner _ _ _ holds calling.cpu
        (by unfold kernelStackTop taskRegistersOffset at *; omega) calls.room below calls.argument
        (by
          rw [calls.code, cs]
          unfold Cpu.privilege kernelCodeSelector at *
          omega) site
      rw [same] at continued
      refine ⟨left, returns, ?_, ?_, continued.same, continued.stack⟩
      · rw [continued.same]
        rfl
      · rw [continued.same]
        exact selector

/-- After an event that resumes a task: the registers of every task are saved. -/
structure TrapResumed (live : List Allocation) (memories : List TaskMemory)
    (history : List TrapEvent) (kernel : Kernel) (task : Nat) : Prop where
  tasks : TaskState kernelHeapRegion live memories kernel
  nonempty : memories ≠ []
  current : kernel.currentTask = task
  running : (trappedAfter history).running = task
  saved : ∀ memory ∈ memories,
    SavedAs kernel memory.task (savedCpu ((trappedAfter history).last memory.task))
  user : ∀ task, FromUser ((trappedAfter history).last task)

theorem TrapResumed.state {task : Nat} (resumed : TrapResumed live memories history kernel task) :
    TrapState live memories history kernel :=
  ⟨resumed.tasks, fun _ => resumed.running.trans resumed.current.symm,
    fun memory member _ => resumed.saved memory member, resumed.user⟩

/-- The resumed task goes on as its last interrupt says. -/
theorem TrapResumed.left {task : Nat} {calling : State}
    (resumed : TrapResumed live memories history kernel task)
    (calls : CallsTaskReturn kernel task calling) (site : Nat) :
    ∃ left, exec (taskReturn site) calling = some left ∧
      ResumesAs ((trappedAfter history).last task) left.cpu := by
  have listed := resumed.tasks.list.current fun none =>
    resumed.nonempty (List.map_eq_nil_iff.mp none)
  rw [resumed.current] at listed
  obtain ⟨memory, member, rfl⟩ := List.mem_map.mp listed
  exact calls.resumesAs resumed.tasks.invariant (resumed.saved memory member) (resumed.user _) site

theorem TrapResumed.resumesAs {task site : Nat} {calling left : State}
    (resumed : TrapResumed live memories history kernel task)
    (calls : CallsTaskReturn kernel task calling)
    (returns : exec (taskReturn site) calling = some left) :
    ResumesAs ((trappedAfter history).last task) left.cpu := by
  obtain ⟨left', returns', same⟩ := resumed.left calls site
  rwa [← Option.some.inj (returns.symm.trans returns')] at same

/-- The first task is started. -/
theorem TrapState.first (before : TrapState live memories [] kernel) {task : Nat}
    (run : taskRunFirstEverTask.run kernel = .ok (task, next)) :
    TrapResumed live memories [.first task] next task := by
  obtain ⟨rfl, notNull, directory, rfl⟩ := taskRunFirstEverTask_completed run
  have nonempty : memories ≠ [] := fun none =>
    notNull (before.tasks.list.currentNull.mpr (by rw [none]; rfl))
  have listed : kernel.taskHead ∈ memories.map TaskMemory.task := by
    rw [before.tasks.list.head]
    cases memories with
    | nil => exact absurd rfl nonempty
    | cons memory rest => exact List.mem_cons_self
  exact ⟨before.tasks.switch rfl rfl rfl rfl listed, nonempty, rfl, rfl,
    fun memory member => before.saved memory member (.inl rfl), before.user⟩

/-- Saving the registers of the current task. -/
theorem TrapState.save (before : TrapState live memories history kernel)
    (started : history ≠ []) {value : Task}
    (here : kernel.objs kernel.currentTask = some (.task value)) (user : Cpu) (code : Option Nat) :
    memories ≠ [] ∧
      TaskState kernelHeapRegion live memories (kernel.setObj kernel.currentTask
        (some (.task { value with registers := (trapFrame user code).registers }))) ∧
      ∀ memory ∈ memories, SavedAs (kernel.setObj kernel.currentTask
          (some (.task { value with registers := (trapFrame user code).registers }))) memory.task
        (savedCpu (Function.update (trappedAfter history).last (trappedAfter history).running
          (some (user, code)) memory.task)) := by
  have nonempty : memories ≠ [] := by
    rintro rfl
    have null := before.tasks.list.currentNull.mpr rfl
    rw [null, before.tasks.invariant.null] at here
    cases here
  refine ⟨nonempty, before.tasks.setTask here rfl rfl rfl, fun memory member => ?_⟩
  rw [before.running started]
  by_cases same : memory.task = kernel.currentTask
  · rw [same, Function.update_self]
    exact ⟨_, Kernel.setObj_objs_self .., rfl⟩
  · rw [Function.update_of_ne same]
    obtain ⟨value', there, saved⟩ := before.saved memory member (.inr same)
    exact ⟨value', (Kernel.setObj_objs_of_ne _ _ same).trans there, saved⟩

/-- An interrupt takes the running task, and the next one is resumed. -/
theorem TrapState.interrupt (before : TrapState live memories history kernel)
    (started : history ≠ []) {vector : Nat} {user : Cpu} {code : Option Nat}
    (fromUser : FromUser (some (user, code))) (callback : vector ≤ 0x20) {task : Nat}
    (run : (interruptHandler vector (trapFrame user code)).run kernel = .ok (some task, next)) :
    TrapResumed live memories (history ++ [.interrupt vector user code task]) next task := by
  obtain ⟨value, _, _, directory, found, here, same, following, table, rfl⟩ :=
    interruptHandler_completed callback run
  cases same
  obtain ⟨nonempty, tasks, saved⟩ := before.save started here user code
  have list := before.tasks.list
  have listed := list.current fun none => nonempty (List.map_eq_nil_iff.mp none)
  obtain ⟨position, inside, at'⟩ := List.getElem_of_mem listed
  have member := List.mem_of_getElem?
    (list.getNext ((List.getElem?_eq_getElem inside).trans (congrArg some at')) here)
  rw [← following] at member
  refine ⟨tasks.switch rfl rfl rfl rfl member, nonempty, rfl, ?_, ?_, ?_⟩
  · rw [trappedAfter_concat]
    rfl
  · rw [trappedAfter_concat]
    exact saved
  · rw [trappedAfter_concat]
    intro other
    change FromUser (Function.update (trappedAfter history).last (trappedAfter history).running
      (some (user, code)) other)
    by_cases same : other = (trappedAfter history).running
    · rw [same, Function.update_self]
      exact fromUser
    · rw [Function.update_of_ne same]
      exact before.user other

/-- A system call saves the registers of the running task, which continues. -/
theorem TrapState.systemCall (before : TrapState live memories history kernel)
    (started : history ≠ []) {user : Cpu} {command : Int} {frame : InterruptFrame} {res : Nat}
    (run : (isr80hHandler command frame).run kernel = .ok (res, next)) :
    TrapState live memories (history ++ [.systemCall user]) next := by
  obtain ⟨_, value, directory, here, rfl⟩ := isr80hHandler_completed run
  have nonempty : memories ≠ [] := by
    rintro rfl
    have null := before.tasks.list.currentNull.mpr rfl
    rw [null, before.tasks.invariant.null] at here
    cases here
  have listed := before.tasks.list.current fun none => nonempty (List.map_eq_nil_iff.mp none)
  have tasks : TaskState kernelHeapRegion live memories (kernel.setObj kernel.currentTask
      (some (.task { value with registers := frame.registers }))) :=
    before.tasks.setTask here rfl rfl rfl
  refine ⟨tasks.switch rfl rfl rfl rfl listed, ?_, ?_, ?_⟩
  · rw [trappedAfter_concat]
    exact fun _ => before.running started
  · rw [trappedAfter_concat]
    intro memory member other
    have apart : memory.task ≠ kernel.currentTask := other.resolve_left
      (List.append_ne_nil_of_right_ne_nil _ (List.cons_ne_nil _ _))
    obtain ⟨value', there, same⟩ := before.saved memory member (.inr apart)
    exact ⟨value', (Kernel.setObj_objs_of_ne _ _ apart).trans there, same⟩
  · rw [trappedAfter_concat]
    exact before.user

/-- **One event.** -/
theorem TrapState.step (before : TrapState live memories history kernel) {event : TrapEvent}
    (order : history = [] ↔ ∃ task, event = .first task) {cpu : Cpu}
    (step : TrapStep kernel event next cpu) :
    TrapState live memories (history ++ [event]) next ∧
      ∀ task, event.resumed = some task →
        ResumesAs ((trappedAfter (history ++ [event])).last task) cpu := by
  cases step with
  | first run calls returns =>
      obtain rfl := order.mpr ⟨_, rfl⟩
      have resumed := before.first run
      refine ⟨resumed.state, fun task same => ?_⟩
      cases same
      exact resumed.resumesAs calls returns
  | interrupt userMode positive callback coded enters first second points run calls returns =>
      obtain ⟨number, pointer, pointed, frame⟩ := interruptEntry_hands enters
      obtain rfl := Option.some.inj (first.symm.trans number)
      obtain rfl := Option.some.inj (second.symm.trans pointed)
      obtain rfl := Option.some.inj (points.symm.trans frame)
      have resumed := before.interrupt (fun none => nomatch order.mp none)
        (fun user code same => by
          cases same
          exact ⟨userMode, fun some => (coded some).2⟩) callback run
      refine ⟨resumed.state, fun task same => ?_⟩
      cases same
      exact resumed.resumesAs calls returns
  | systemCall userMode enters first second points run calls returns =>
      exact ⟨before.systemCall (fun none => nomatch order.mp none) run, nofun⟩

end Steps

section Runs

variable {live : List Allocation} {start booted kernel : Kernel} {tasks : List Nat}

/-- The tasks over a run. -/
theorem TrapRun.state (inv : KernelInvariant kernelHeapRegion live start)
    (empty : TaskList [] start) (made : TaskRun (fun _ _ => False) start tasks booted)
    {history : List TrapEvent} (run : TrapRun booted history kernel) :
    ∃ live' memories, TrapState live' memories history kernel := by
  induction run with
  | start =>
      obtain ⟨live', memories, rfl, state, saved⟩ := made.savedAs inv empty
      exact ⟨live', memories, state, fun more => absurd rfl more,
        fun _ member _ => saved _ (List.mem_map_of_mem member), fun _ => nofun⟩
  | step _ order step ih =>
      obtain ⟨live', memories, state⟩ := ih
      exact ⟨live', memories, (state.step order step).1⟩

end Runs

section Progress

variable {live : List Allocation} {memories : List TaskMemory} {kernel : Kernel}

end Progress

end Peachos
