import Peachos.Task.Process

/-! # Interrupts

`idt.c` and the parts of `task.c` and `kernel.c` that it calls. `interrupt_handler` and
`isr80h_handler` get the frame that the processor and `pushad` left on the kernel stack. The
callbacks never return: they end in `task_return` with the registers of a task, which is what
`taskNext` returns here.
-/

namespace Peachos

open CInt

abbrev peachosMaxIsr80hCommands : Int := 1024

/-- `struct interrupt_frame`, in the order of its fields. -/
structure InterruptFrame where
  edi : Nat
  esi : Nat
  ebp : Nat
  reserved : Nat
  ebx : Nat
  edx : Nat
  ecx : Nat
  eax : Nat
  ip : Nat
  cs : Nat
  flags : Nat
  esp : Nat
  ss : Nat
  deriving DecidableEq, Repr

/-- The registers that `task_save_state` takes from a frame. -/
def InterruptFrame.registers (frame : InterruptFrame) : Registers where
  ip := frame.ip
  cs := frame.cs
  flags := frame.flags
  esp := frame.esp
  ss := frame.ss
  eax := frame.eax
  ebp := frame.ebp
  ebx := frame.ebx
  ecx := frame.ecx
  edi := frame.edi
  edx := frame.edx
  esi := frame.esi

def taskSaveState (task : Nat) (frame : InterruptFrame) : K Unit := do
  let value ← load Obj.task? task
  store task (.task { value with registers := frame.registers })

def taskCurrentSaveState (frame : InterruptFrame) : K Unit := do
  let current ← Exec.read Kernel.currentTask
  if current = 0 then panic "No current task to save\n"
  else taskSaveState current frame

/-- `kernel_page`, without the segment registers. -/
def kernelPage : K Unit := do
  let chunk ← Exec.read Kernel.kernelChunk
  pagingSwitch chunk

/-- `task_page`, without the segment registers. -/
def taskPage : K Unit := do
  let current ← Exec.read Kernel.currentTask
  taskSwitch current

/-- `task_next`: the task that `task_return` continues. -/
def taskNext : K Nat := do
  let nextTask ← taskGetNext
  if nextTask = 0 then panic "No more tasks!\n"
  else do
    taskSwitch nextTask
    pure nextTask

/-- `task_run_first_ever_task`: the task that `task_return` continues. -/
def taskRunFirstEverTask : K Nat := do
  let current ← Exec.read Kernel.currentTask
  if current = 0 then panic "task_run_first_ever_task(): No current task exists!\n"
  else do
    let head ← Exec.read Kernel.taskHead
    taskSwitch head
    pure head

def idtHandleException : K Nat := do
  let current ← Exec.read Kernel.currentTask
  let value ← load Obj.task? current
  let _ ← processTerminate value.process
  taskNext

def idtClock : K Nat := taskNext

/-- `interrupt_callbacks` after `idt_init`. -/
def interruptCallbacks (interrupt : Nat) : Option (K Nat) :=
  if interrupt < 0x20 then some idtHandleException
  else if interrupt = 0x20 then some idtClock
  else none

/-- `interrupt_handler`: the task that `task_return` continues, if the handler does not
return. -/
def interruptHandler (interrupt : Nat) (frame : InterruptFrame) : K (Option Nat) := do
  kernelPage
  match interruptCallbacks interrupt with
  | some callback => do
      taskCurrentSaveState frame
      let task ← callback
      pure (some task)
  | none => do
      taskPage
      pure none

/-- `isr80h_commands`, in which nothing is registered. -/
def isr80hCommands (_command : Nat) : Option (InterruptFrame → K Nat) := none

def isr80hHandleCommand (command : Int) (frame : InterruptFrame) : K Nat :=
  if command < 0 ∨ command ≥ peachosMaxIsr80hCommands then pure 0
  else
    match isr80hCommands command.toNat with
    | none => pure 0
    | some commandFunc => commandFunc frame

/-- `isr80h_handler`: the result that `isr80h_wrapper` leaves in `eax`. -/
def isr80hHandler (command : Int) (frame : InterruptFrame) : K Nat := do
  kernelPage
  taskCurrentSaveState frame
  let res ← isr80hHandleCommand command frame
  taskPage
  pure res

end Peachos
