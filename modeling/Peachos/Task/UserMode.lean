import Peachos.Foundation.X86
import Peachos.Task.InterruptSpec
import Peachos.Task.Isolation

/-! # The user mode

Between two interrupts a task runs in the user mode. All that it can do to the memory is to store
through its page directory; all that the handlers of its interrupts and system calls do to the
objects of the kernel is to save its registers (`interruptHandler_served`, `isr80hHandler_served`).
-/

namespace Peachos

open CInt X86

variable {kernel next : Kernel}

/-- The processor translates with the page directory of the current task. -/
def TranslatesCurrent (kernel : Kernel) : Prop :=
  ∃ value, kernel.objs kernel.currentTask = some (.task value) ∧
    kernel.objs value.pageDirectory = some (.chunk kernel.currentDirectory)

theorem taskSwitch_translates {task : Nat} {done : Unit}
    (run : (taskSwitch task).run kernel = .ok (done, next)) : TranslatesCurrent next := by
  obtain ⟨_, _, switched, run₁⟩ := Exec.bind_eq_ok.mp run
  cases switched
  obtain ⟨contents, value, here, typed, run₂⟩ := load_bind_eq_ok.mp run₁
  obtain ⟨chunk, directory, there, isChunk, rest⟩ := load_bind_eq_ok.mp run₂
  cases contents <;> cases typed
  cases chunk <;> cases isChunk
  cases rest
  exact ⟨value, here, there⟩

theorem taskNext_translates {task : Nat} (run : taskNext.run kernel = .ok (task, next)) :
    TranslatesCurrent next := by
  obtain ⟨found, _, _, run₁⟩ := Exec.bind_eq_ok.mp run
  by_cases null : found = 0
  · rw [if_pos null] at run₁
    cases run₁
  · rw [if_neg null] at run₁
    obtain ⟨_, _, switch, done⟩ := Exec.bind_eq_ok.mp run₁
    cases done
    exact taskSwitch_translates switch

theorem taskPage_completed {done : Unit} (run : taskPage.run kernel = .ok (done, next)) :
    TranslatesCurrent next ∧ ∃ directory, next = { kernel with currentDirectory := directory } := by
  obtain ⟨_, _, read, switch⟩ := Exec.bind_eq_ok.mp run
  cases read
  obtain ⟨directory, same⟩ := taskSwitch_completed switch
  exact ⟨taskSwitch_translates switch, directory, same⟩

theorem taskRunFirstEverTask_translates {task : Nat}
    (run : taskRunFirstEverTask.run kernel = .ok (task, next)) : TranslatesCurrent next := by
  obtain ⟨_, _, read, run₁⟩ := Exec.bind_eq_ok.mp run
  cases read
  split at run₁
  · cases run₁
  · obtain ⟨_, _, read, run₂⟩ := Exec.bind_eq_ok.mp run₁
    cases read
    obtain ⟨_, _, switch, done⟩ := Exec.bind_eq_ok.mp run₂
    cases done
    exact taskSwitch_translates switch

/-- What the handler of an interrupt or of a system call did: at most it saved the registers of the
interrupted task, took a process out of the table and went on with the next task. -/
structure Served (frame : InterruptFrame) (kernel next : Kernel) : Prop where
  heap : next.heap = kernel.heap
  head : next.taskHead = kernel.taskHead
  tail : next.taskTail = kernel.taskTail
  chunk : next.kernelChunk = kernel.kernelChunk
  slots : next.processes.length = kernel.processes.length
  objs : next.objs = kernel.objs ∨ ∃ value, kernel.objs kernel.currentTask = some (.task value) ∧
    next.objs = (kernel.setObj kernel.currentTask
      (some (.task { value with registers := frame.registers }))).objs
  current : next.currentTask = kernel.currentTask ∨
    ∃ value, kernel.objs kernel.currentTask = some (.task value) ∧
      next.currentTask = if value.next = 0 then kernel.taskHead else value.next
  translates : TranslatesCurrent next

/-- **Every interrupt**, whether it has a callback or not. -/
theorem interruptHandler_served {interrupt : Nat} {frame : InterruptFrame} {result : Option Nat}
    (run : (interruptHandler interrupt frame).run kernel = .ok (result, next)) :
    Served frame kernel next := by
  have whole := run
  obtain ⟨_, paged, page, run₁⟩ := Exec.bind_eq_ok.mp run
  by_cases callback : interrupt ≤ 0x20
  · have translates : TranslatesCurrent next := by
      by_cases clock : interrupt = 0x20
      · rw [show interruptCallbacks interrupt = some idtClock by
          rw [interruptCallbacks, if_neg (by omega), if_pos clock]] at run₁
        obtain ⟨_, _, _, run₂⟩ := Exec.bind_eq_ok.mp run₁
        obtain ⟨_, _, advance, run₃⟩ := Exec.bind_eq_ok.mp run₂
        cases run₃
        exact taskNext_translates advance
      · rw [show interruptCallbacks interrupt = some idtHandleException by
          rw [interruptCallbacks, if_pos (by omega)]] at run₁
        obtain ⟨_, _, _, run₂⟩ := Exec.bind_eq_ok.mp run₁
        obtain ⟨_, _, handle, run₃⟩ := Exec.bind_eq_ok.mp run₂
        cases run₃
        obtain ⟨_, _, _, run₄⟩ := Exec.bind_eq_ok.mp handle
        obtain ⟨_, _, _, _, run₅⟩ := load_bind_eq_ok.mp run₄
        obtain ⟨_, _, _, advance⟩ := Exec.bind_eq_ok.mp run₅
        exact taskNext_translates advance
    obtain ⟨value, processes, currentProcess, directory, task, here, _, following, table, rfl⟩ :=
      interruptHandler_completed callback whole
    have slots : processes.length = kernel.processes.length := by
      rcases table with ⟨_, rfl⟩ | ⟨_, _, _, rfl⟩
      · rfl
      · exact List.length_set
    exact ⟨rfl, rfl, rfl, rfl, slots, .inr ⟨value, here, rfl⟩, .inr ⟨value, here, following⟩,
      translates⟩
  · rw [show interruptCallbacks interrupt = none by
      rw [interruptCallbacks, if_neg (by omega), if_neg (by omega)]] at run₁
    obtain ⟨_, rfl⟩ := kernelPage_completed page
    obtain ⟨_, _, back, run₂⟩ := Exec.bind_eq_ok.mp run₁
    cases run₂
    obtain ⟨translates, _, rfl⟩ := taskPage_completed back
    exact ⟨rfl, rfl, rfl, rfl, rfl, .inl rfl, .inl rfl, translates⟩

/-- **Every system call.** -/
theorem isr80hHandler_served {command : Int} {frame : InterruptFrame} {res : Nat}
    (run : (isr80hHandler command frame).run kernel = .ok (res, next)) :
    Served frame kernel next := by
  have translates : TranslatesCurrent next := by
    obtain ⟨_, _, _, run₁⟩ := Exec.bind_eq_ok.mp run
    obtain ⟨_, _, _, run₂⟩ := Exec.bind_eq_ok.mp run₁
    obtain ⟨_, _, _, run₃⟩ := Exec.bind_eq_ok.mp run₂
    obtain ⟨_, _, back, run₄⟩ := Exec.bind_eq_ok.mp run₃
    cases run₄
    exact (taskPage_completed back).1
  obtain ⟨_, value, directory, here, rfl⟩ := isr80hHandler_completed run
  exact ⟨rfl, rfl, rfl, rfl, rfl, .inr ⟨value, here, rfl⟩, .inl rfl, translates⟩

/-- The object that a store to one of its bytes leaves. A buffer has that byte changed; nothing is
known of a structure of the kernel that was stored to. -/
inductive Obj.Overwritten (offset : Nat) (byte : UInt8) : Obj → Obj → Prop
  | bytes (contents : List UInt8) :
      Overwritten offset byte (.bytes contents) (.bytes (contents.set offset byte))
  | structured {before after : Obj} (notBytes : before.bytes? = none) :
      Overwritten offset byte before after

/-- The address lies in the blocks of the allocation. -/
def Allocation.holdsAddress (block : Allocation) (address : Nat) : Prop :=
  block.ptr ≤ address ∧ address < block.ptr + peachosHeapBlockSize * blocksFor block.size

/-- A store to a physical address. Outside of the live blocks lie the code, the variables and the
stack of the kernel and the table of its heap: nothing is known of the kernel after a store
there. -/
inductive PhysicalStore (live : List Allocation) (kernel : Kernel) (address : Nat) (byte : UInt8) :
    Kernel → Prop
  | block {allocation : Allocation} {before after : Obj} (member : allocation ∈ live)
      (inside : allocation.holdsAddress address)
      (here : kernel.objs allocation.ptr = some before)
      (written : Obj.Overwritten (address - allocation.ptr) byte before after) :
      PhysicalStore live kernel address byte (kernel.setObj allocation.ptr (some after))
  | elsewhere {next : Kernel}
      (outside : ∀ allocation ∈ live, ¬ allocation.holdsAddress address) :
      PhysicalStore live kernel address byte next

/-- Runs of the user mode from `start` to a kernel, with the tasks that stored something. The task
that runs stores where the processor lets it, or an interrupt or a system call comes whose frame has a
code selector of the user mode. An exception with an error code is none of these, as its frame is read
one dword off. Every number of an interrupt is taken here to enter `interrupt_handler`, also 0, which
`idt_init` leads to `idt_zero`: a run through that one is no `UserRun`. -/
inductive UserRun (live : List Allocation) (start : Kernel) : List Nat → Kernel → Prop
  | start : UserRun live start [] start
  | interrupt {ran : List Nat} {kernel next : Kernel} {interrupt : Nat} {frame : InterruptFrame}
      {result : Option Nat} (before : UserRun live start ran kernel)
      (userMode : Cpu.privilege frame.cs = 3)
      (run : (interruptHandler interrupt frame).run kernel = .ok (result, next)) :
      UserRun live start ran next
  | systemCall {ran : List Nat} {kernel next : Kernel} {command : Int} {frame : InterruptFrame}
      {res : Nat} (before : UserRun live start ran kernel)
      (userMode : Cpu.privilege frame.cs = 3)
      (run : (isr80hHandler command frame).run kernel = .ok (res, next)) :
      UserRun live start ran next
  | store {ran : List Nat} {kernel next : Kernel} {virt : Nat} {byte : UInt8} {access : Access}
      (before : UserRun live start ran kernel) (word : virt < 4294967296)
      (walk : (mmuWalk kernel.currentDirectory virt).run kernel = .ok (some access, kernel))
      (user : access.user = true) (writeable : access.writeable = true)
      (stored : PhysicalStore live kernel access.address byte next) :
      UserRun live start (kernel.currentTask :: ran) next

/-- An object is the same, or a task with other registers. -/
def SameButRegisters (before after : Option Obj) : Prop :=
  after = before ∨ ∃ value registers, before = some (.task value) ∧
    after = some (.task { value with registers := registers })

theorem SameButRegisters.trans {before middle after : Option Obj}
    (first : SameButRegisters before middle) (second : SameButRegisters middle after) :
    SameButRegisters before after := by
  rcases first with rfl | ⟨value, registers, rfl, rfl⟩
  · exact second
  rcases second with rfl | ⟨value', registers', same, rfl⟩
  · exact .inr ⟨value, registers, rfl, rfl⟩
  · cases same
    exact .inr ⟨value, registers', rfl, rfl⟩

/-- From `kernel` to `next` at most the registers of tasks and the programs and stacks of the
processes whose tasks ran have changed. -/
def KeepsOthers (processes ran : List Nat) (kernel next : Kernel) : Prop :=
  ∀ ptr, (∀ process ∈ processes, ∀ value, kernel.objs process = some (.process value) →
      value.task ∈ ran → ∀ block ∈ value.blocks, block.ptr ≠ ptr) →
    SameButRegisters (kernel.objs ptr) (next.objs ptr)

end Peachos
