import Peachos.Task.Interrupts
import Peachos.Task.TaskList

/-! # What the interrupt handlers do

A completed interrupt saved the registers of the current task, took the process of that task out
of the table if it was an exception, and continues the next task of the list.
-/

namespace Peachos

open CInt

variable {kernel next : Kernel}

theorem pagingSwitch_completed {chunk : Nat} {done : Unit}
    (run : (pagingSwitch chunk).run kernel = .ok (done, next)) :
    ∃ directory, next = { kernel with currentDirectory := directory } := by
  obtain ⟨_, directory, _, _, rest⟩ := load_bind_eq_ok.mp run
  cases rest
  exact ⟨directory, rfl⟩

theorem taskSwitch_completed {task : Nat} {done : Unit}
    (run : (taskSwitch task).run kernel = .ok (done, next)) : ∃ directory,
      next = { kernel with currentTask := task, currentDirectory := directory } := by
  obtain ⟨_, _, switched, run₁⟩ := Exec.bind_eq_ok.mp run
  cases switched
  obtain ⟨_, value, _, _, run₂⟩ := load_bind_eq_ok.mp run₁
  exact pagingSwitch_completed run₂

theorem kernelPage_completed {done : Unit} (run : kernelPage.run kernel = .ok (done, next)) :
    ∃ directory, next = { kernel with currentDirectory := directory } := by
  obtain ⟨_, _, read, rest⟩ := Exec.bind_eq_ok.mp run
  cases read
  exact pagingSwitch_completed rest

/-- The registers of the frame are saved in the current task. -/
theorem taskCurrentSaveState_completed {frame : InterruptFrame} {done : Unit}
    (run : (taskCurrentSaveState frame).run kernel = .ok (done, next)) :
    ∃ value, kernel.objs kernel.currentTask = some (.task value) ∧
      next = kernel.setObj kernel.currentTask
        (some (.task { value with registers := frame.registers })) := by
  obtain ⟨_, _, read, run₁⟩ := Exec.bind_eq_ok.mp run
  cases read
  by_cases null : kernel.currentTask = 0
  · rw [if_pos null] at run₁
    cases run₁
  · rw [if_neg null] at run₁
    obtain ⟨contents, value, here, typed, run₂⟩ := load_bind_eq_ok.mp run₁
    obtain ⟨_, rfl⟩ := store_eq_ok.mp run₂
    cases contents <;> cases typed
    exact ⟨value, here, rfl⟩

/-- The next task is the one after the current task, or the first one. -/
theorem taskNext_completed {task : Nat} (run : taskNext.run kernel = .ok (task, next)) :
    ∃ value directory, kernel.objs kernel.currentTask = some (.task value) ∧
      task = (if value.next = 0 then kernel.taskHead else value.next) ∧
      next = { kernel with currentTask := task, currentDirectory := directory } := by
  obtain ⟨found, middle, getNext, run₁⟩ := Exec.bind_eq_ok.mp run
  obtain ⟨_, _, read, loads⟩ := Exec.bind_eq_ok.mp getNext
  cases read
  obtain ⟨contents, value, here, typed, _⟩ := load_bind_eq_ok.mp loads
  cases contents <;> cases typed
  rw [taskGetNext_of_obj here] at getNext
  obtain ⟨same, rfl⟩ := Prod.mk.inj (Except.ok.inj getNext)
  by_cases null : found = 0
  · rw [if_pos null] at run₁
    cases run₁
  · rw [if_neg null] at run₁
    obtain ⟨_, _, switch, done⟩ := Exec.bind_eq_ok.mp run₁
    cases done
    obtain ⟨directory, rfl⟩ := taskSwitch_completed switch
    exact ⟨value, directory, here, same.symm, rfl⟩

theorem processSwitchToAnyLoop_completed :
    ∀ (count i : Nat) {kernel next : Kernel} {done : Unit},
      (processSwitchToAnyLoop count i).run kernel = .ok (done, next) →
      ∃ process, next = { kernel with currentProcess := process } := by
  intro count
  induction count with
  | zero =>
      intro i kernel next done run
      cases run
      exact ⟨kernel.currentProcess, rfl⟩
  | succ count ih =>
      intro i kernel next done run
      obtain ⟨process, _, read, run₁⟩ := Exec.bind_eq_ok.mp run
      obtain ⟨_, rfl⟩ := Exec.demand_eq_ok.mp read
      split at run₁
      · obtain ⟨_, _, switch, rest⟩ := Exec.bind_eq_ok.mp run₁
        cases switch
        cases rest
        exact ⟨process, rfl⟩
      · exact ih (i + 1) run₁

/-- The slot of the process is cleared, whatever it holds. -/
theorem processTerminate_completed {process : Nat} {res : Int}
    (run : (processTerminate process).run kernel = .ok (res, next)) :
    ∃ value current, kernel.objs process = some (.process value) ∧
      next = { kernel with
        processes := kernel.processes.set value.id 0, currentProcess := current } := by
  obtain ⟨_, middle, unlink, rest⟩ := Exec.bind_eq_ok.mp run
  cases rest
  obtain ⟨contents, value, here, typed, run₁⟩ := load_bind_eq_ok.mp unlink
  cases contents <;> cases typed
  obtain ⟨_, written, write, run₂⟩ := Exec.bind_eq_ok.mp run₁
  have cleared : written = { kernel with processes := kernel.processes.set value.id 0 } := by
    unfold writeProcesses at write
    rw [Exec.run_of] at write
    split at write
    · cases write
      rfl
    · cases write
  subst cleared
  obtain ⟨_, _, read, run₃⟩ := Exec.bind_eq_ok.mp run₂
  cases read
  split at run₃
  · obtain ⟨current, rfl⟩ := processSwitchToAnyLoop_completed _ _ run₃
    exact ⟨value, current, here, rfl⟩
  · cases run₃
    exact ⟨value, kernel.currentProcess, here, rfl⟩

/-- **A completed interrupt** that has a callback. -/
theorem interruptHandler_completed {interrupt : Nat} (callback : interrupt ≤ 0x20)
    {frame : InterruptFrame} {result : Option Nat}
    (run : (interruptHandler interrupt frame).run kernel = .ok (result, next)) :
    ∃ value processes currentProcess directory task,
      kernel.objs kernel.currentTask = some (.task value) ∧ result = some task ∧
      task = (if value.next = 0 then kernel.taskHead else value.next) ∧
      (interrupt = 0x20 ∧ processes = kernel.processes ∨
        interrupt < 0x20 ∧ ∃ process, kernel.objs value.process = some (.process process) ∧
          processes = kernel.processes.set process.id 0) ∧
      next = { kernel.setObj kernel.currentTask
          (some (.task { value with registers := frame.registers })) with
        processes := processes, currentProcess := currentProcess, currentTask := task,
        currentDirectory := directory } := by
  obtain ⟨_, paged, page, run₁⟩ := Exec.bind_eq_ok.mp run
  obtain ⟨_, rfl⟩ := kernelPage_completed page
  by_cases clock : interrupt = 0x20
  · have isClock : interruptCallbacks interrupt = some idtClock := by
      rw [interruptCallbacks, if_neg (by omega), if_pos clock]
    rw [isClock] at run₁
    obtain ⟨_, saved, save, run₂⟩ := Exec.bind_eq_ok.mp run₁
    obtain ⟨value, here, rfl⟩ := taskCurrentSaveState_completed save
    obtain ⟨task, _, advance, run₃⟩ := Exec.bind_eq_ok.mp run₂
    cases run₃
    obtain ⟨value', directory, there, rfl, rfl⟩ := taskNext_completed advance
    have same : (kernel.setObj kernel.currentTask (some (.task { value with
        registers := frame.registers }))).objs kernel.currentTask = some (.task value') := there
    rw [Kernel.setObj_objs_self] at same
    cases same
    exact ⟨value, kernel.processes, kernel.currentProcess, directory, _, here, rfl, rfl,
      .inl ⟨clock, rfl⟩, rfl⟩
  · have isException : interruptCallbacks interrupt = some idtHandleException := by
      rw [interruptCallbacks, if_pos (by omega)]
    rw [isException] at run₁
    obtain ⟨_, saved, save, run₂⟩ := Exec.bind_eq_ok.mp run₁
    obtain ⟨value, here, rfl⟩ := taskCurrentSaveState_completed save
    obtain ⟨task, _, handle, run₃⟩ := Exec.bind_eq_ok.mp run₂
    cases run₃
    obtain ⟨_, _, read, run₄⟩ := Exec.bind_eq_ok.mp handle
    cases read
    obtain ⟨contents, value', there, typed, run₅⟩ := load_bind_eq_ok.mp run₄
    have same : (kernel.setObj kernel.currentTask (some (.task { value with
        registers := frame.registers }))).objs kernel.currentTask = some contents := there
    rw [Kernel.setObj_objs_self] at same
    cases same
    cases typed
    obtain ⟨_, _, terminate, advance⟩ := Exec.bind_eq_ok.mp run₅
    obtain ⟨process, current, found, rfl⟩ := processTerminate_completed terminate
    obtain ⟨value', directory, still, rfl, rfl⟩ := taskNext_completed advance
    have same : (kernel.setObj kernel.currentTask (some (.task { value with
        registers := frame.registers }))).objs kernel.currentTask = some (.task value') := still
    rw [Kernel.setObj_objs_self] at same
    cases same
    have apart : value.process ≠ kernel.currentTask :=
      Kernel.ne_of_objs found there nofun
    have processHere : kernel.objs value.process = some (.process process) :=
      (Kernel.setObj_objs_of_ne kernel _ apart).symm.trans found
    exact ⟨value, _, current, directory, _, here, rfl, rfl,
      .inr ⟨by omega, process, processHere, rfl⟩, rfl⟩

/-- No command is registered. -/
theorem isr80hHandleCommand_run (command : Int) (frame : InterruptFrame) (kernel : Kernel) :
    (isr80hHandleCommand command frame).run kernel = .ok (0, kernel) := by
  rw [isr80hHandleCommand]
  split <;> rfl

/-- **A completed system call** saves the registers and returns null. -/
theorem isr80hHandler_completed {command : Int} {frame : InterruptFrame} {res : Nat}
    (run : (isr80hHandler command frame).run kernel = .ok (res, next)) :
    res = 0 ∧ ∃ value directory, kernel.objs kernel.currentTask = some (.task value) ∧
      next = { kernel.setObj kernel.currentTask
        (some (.task { value with registers := frame.registers })) with
          currentDirectory := directory } := by
  obtain ⟨_, paged, page, run₁⟩ := Exec.bind_eq_ok.mp run
  obtain ⟨_, rfl⟩ := kernelPage_completed page
  obtain ⟨_, saved, save, run₂⟩ := Exec.bind_eq_ok.mp run₁
  obtain ⟨value, here, rfl⟩ := taskCurrentSaveState_completed save
  rw [Exec.bind_of_ok (isr80hHandleCommand_run ..)] at run₂
  obtain ⟨_, _, page', run₃⟩ := Exec.bind_eq_ok.mp run₂
  cases run₃
  obtain ⟨_, _, read, switch⟩ := Exec.bind_eq_ok.mp page'
  cases read
  obtain ⟨directory, rfl⟩ := taskSwitch_completed switch
  exact ⟨rfl, value, directory, here, rfl⟩

/-- The first task is the head of the list. -/
theorem taskRunFirstEverTask_completed {task : Nat}
    (run : taskRunFirstEverTask.run kernel = .ok (task, next)) :
    task = kernel.taskHead ∧ kernel.currentTask ≠ 0 ∧ ∃ directory,
      next = { kernel with currentTask := kernel.taskHead, currentDirectory := directory } := by
  obtain ⟨_, _, read, run₁⟩ := Exec.bind_eq_ok.mp run
  cases read
  by_cases null : kernel.currentTask = 0
  · rw [if_pos null] at run₁
    cases run₁
  · rw [if_neg null] at run₁
    obtain ⟨_, _, read, run₂⟩ := Exec.bind_eq_ok.mp run₁
    cases read
    obtain ⟨_, _, switch, run₃⟩ := Exec.bind_eq_ok.mp run₂
    cases run₃
    obtain ⟨directory, rfl⟩ := taskSwitch_completed switch
    exact ⟨rfl, null, directory, rfl⟩

end Peachos
