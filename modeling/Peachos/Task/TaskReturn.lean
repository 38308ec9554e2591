import Peachos.Foundation.X86
import Peachos.Kernel.Alloc
import Peachos.Task.Interrupts

/-! # Leaving and entering the user mode

`task.asm` and `idt.asm`. The interrupt stubs leave a `struct interrupt_frame` on the kernel stack
(`interruptEntry_exec`), and `task_return` continues in the user mode with the registers of a
`struct registers` (`taskReturn_exec`). The addresses that the linker chooses, of the call sites
and of `tmp_res`, are parameters.
-/

namespace Peachos

open X86

/-- `tss.esp0` -/
abbrev kernelStackTop : Nat := 0x600000

abbrev kernelCodeSelector : Nat := 0x08

abbrev kernelDataSelector : Nat := 0x10

/-- The offset of `registers` in `struct task`. -/
abbrev taskRegistersOffset : Nat := 4

/-- The dwords of `struct registers`, in the order of its fields. -/
def Registers.dwords (registers : Registers) : List Nat :=
  [registers.edi, registers.esi, registers.ebp, registers.ebx, registers.edx, registers.ecx,
    registers.eax, registers.ip, registers.cs, registers.flags, registers.esp, registers.ss]

/-- The dwords of `struct task`, in the order of its fields. -/
def Task.dwords (task : Task) : List Nat :=
  task.pageDirectory :: task.registers.dwords ++ [task.process, task.next, task.prev]

/-- The memory of the kernel: the stack and, above it, the heap with the tasks. -/
def kernelMemory (kernel : Kernel) (stack : Nat → Nat) : Memory := fun address =>
  if address < kernelStackTop then some (stack address)
  else
    match kernel.objs (address / peachosHeapBlockSize * peachosHeapBlockSize) with
    | some (.task task) => task.dwords[address % peachosHeapBlockSize / 4]?
    | _ => none

/-- The `struct interrupt_frame` at an address. -/
def frameAt (memory : Memory) (frame : Nat) : Option InterruptFrame := do
  let edi ← memory frame
  let esi ← memory (frame + 4)
  let ebp ← memory (frame + 8)
  let reserved ← memory (frame + 12)
  let ebx ← memory (frame + 16)
  let edx ← memory (frame + 20)
  let ecx ← memory (frame + 24)
  let eax ← memory (frame + 28)
  let ip ← memory (frame + 32)
  let cs ← memory (frame + 36)
  let flags ← memory (frame + 40)
  let esp ← memory (frame + 44)
  let ss ← memory (frame + 48)
  some ⟨edi, esi, ebp, reserved, ebx, edx, ecx, eax, ip, cs, flags, esp, ss⟩

/-- `restore_general_purpose_registers` -/
def restoreGeneralPurposeRegisters (site : Nat) : List Instr :=
  [.push .ebp,
    .mov .ebp .esp,
    .load .ebx .ebp 8,
    .load .edi .ebx 0,
    .load .esi .ebx 4,
    .load .ebp .ebx 8,
    .load .edx .ebx 16,
    .load .ecx .ebx 20,
    .load .eax .ebx 24,
    .load .ebx .ebx 12,
    .add .esp 4,
    .ret site]

/-- `task_return` up to the call of `restore_general_purpose_registers`. -/
def taskReturnFrame (site : Nat) : List Instr :=
  [.mov .ebp .esp,
    .load .ebx .ebp 4,
    .pushAt .ebx 44,
    .pushAt .ebx 40,
    .load .eax .ebx 36,
    .or .eax 0x200,
    .push .eax,
    .pushAt .ebx 32,
    .pushAt .ebx 28,
    .loadAx .ebx 44,
    .segment,
    .segment,
    .segment,
    .segment,
    .pushAt .ebp 4,
    .call site]

/-- `task_return`, with the function that it calls in place. -/
def taskReturn (site : Nat) : List Instr :=
  taskReturnFrame site ++ (restoreGeneralPurposeRegisters site ++ [.add .esp 4, .iret])

/-- The macro `interrupt` up to the call of `interrupt_handler`. -/
def interruptEntry (interrupt site : Nat) : List Instr :=
  [.pushad, .push .esp, .pushImm interrupt, .call site]

/-- `isr80h_wrapper` up to the call of `isr80h_handler`. -/
def isr80hWrapperEntry (site : Nat) : List Instr :=
  [.pushad, .push .esp, .push .eax, .call site]

/-- `isr80h_wrapper` after the call of `isr80h_handler`. -/
def isr80hWrapperExit (tmpRes : Nat) : List Instr :=
  [.storeAt tmpRes .eax, .add .esp 8, .popad, .loadAt .eax tmpRes, .iret]

/-- The state of the processor that the registers stand for. -/
def Registers.cpu (registers : Registers) : Cpu where
  edi := registers.edi
  esi := registers.esi
  ebp := registers.ebp
  esp := registers.esp
  ebx := registers.ebx
  edx := registers.edx
  ecx := registers.ecx
  eax := registers.eax
  eip := registers.ip
  cs := registers.cs
  eflags := registers.flags
  ss := registers.ss

/-- A state of the processor with the interrupts enabled. -/
def enableInterrupts (cpu : Cpu) : Cpu := { cpu with eflags := cpu.eflags ||| 0x200 }

/-- The processor on an interrupt in the user mode. -/
def enterKernel (user : Cpu) (memory : Memory) : State :=
  interrupt kernelStackTop kernelCodeSelector kernelDataSelector user memory

section Frame

/-- The frame that the processor and `pushad` leave. -/
def userFrame (user : Cpu) : InterruptFrame where
  edi := user.edi
  esi := user.esi
  ebp := user.ebp
  reserved := kernelStackTop - 20
  ebx := user.ebx
  edx := user.edx
  ecx := user.ecx
  eax := user.eax
  ip := user.eip
  cs := user.cs
  flags := user.eflags
  esp := user.esp
  ss := user.ss

/-- What a handler finds: its two arguments, the second of which points to the frame. -/
structure Entered (user : Cpu) (argument : Nat) (state : State) : Prop where
  esp : state.cpu.esp = kernelStackTop - 64
  first : state.dword .esp 4 = some argument
  second : state.dword .esp 8 = some (kernelStackTop - 52)
  frame : frameAt state.memory (kernelStackTop - 52) = some (userFrame user)

/-- The dwords on the kernel stack when a handler is called. -/
def enteredStack (user : Cpu) (argument site : Nat) : List Nat :=
  [user.ss, user.esp, user.eflags, user.cs, user.eip, user.eax, user.ecx, user.edx, user.ebx,
    kernelStackTop - 20, user.ebp, user.esi, user.edi, kernelStackTop - 52, argument, site]

/-- The kernel mode starts with an empty stack. -/
def emptyStack (user : Cpu) (memory : Memory) : State :=
  ⟨{ user with esp := kernelStackTop, cs := kernelCodeSelector, ss := kernelDataSelector }, memory⟩

theorem entered_of_pushes (user : Cpu) (memory : Memory) (argument site : Nat) :
    Entered user argument (pushes (enteredStack user argument site) (emptyStack user memory)) := by
  have esp : (pushes (enteredStack user argument site) (emptyStack user memory)).cpu.esp =
      kernelStackTop - 64 := pushes_esp _ _
  have read : ∀ (index : Nat) (inside : index < 16),
      (pushes (enteredStack user argument site) (emptyStack user memory)).memory
        (kernelStackTop - 4 * (index + 1)) = some (enteredStack user argument site)[index] :=
    fun index inside => pushes_memory _ inside (by decide : 4 * 16 ≤ kernelStackTop)
  generalize pushes (enteredStack user argument site) (emptyStack user memory) = state at esp read
  refine ⟨esp, ?_, ?_, ?_⟩
  · rw [State.dword, Cpu.get, esp]
    exact read 14 (by decide)
  · rw [State.dword, Cpu.get, esp]
    exact read 13 (by decide)
  · have edi : state.memory (kernelStackTop - 52) = some user.edi := read 12 (by decide)
    have esi : state.memory (kernelStackTop - 52 + 4) = some user.esi := read 11 (by decide)
    have ebp : state.memory (kernelStackTop - 52 + 8) = some user.ebp := read 10 (by decide)
    have reserved : state.memory (kernelStackTop - 52 + 12) = some (kernelStackTop - 20) :=
      read 9 (by decide)
    have ebx : state.memory (kernelStackTop - 52 + 16) = some user.ebx := read 8 (by decide)
    have edx : state.memory (kernelStackTop - 52 + 20) = some user.edx := read 7 (by decide)
    have ecx : state.memory (kernelStackTop - 52 + 24) = some user.ecx := read 6 (by decide)
    have eax : state.memory (kernelStackTop - 52 + 28) = some user.eax := read 5 (by decide)
    have ip : state.memory (kernelStackTop - 52 + 32) = some user.eip := read 4 (by decide)
    have cs : state.memory (kernelStackTop - 52 + 36) = some user.cs := read 3 (by decide)
    have flags : state.memory (kernelStackTop - 52 + 40) = some user.eflags := read 2 (by decide)
    have esp : state.memory (kernelStackTop - 52 + 44) = some user.esp := read 1 (by decide)
    have ss : state.memory (kernelStackTop - 52 + 48) = some user.ss := read 0 (by decide)
    simp only [frameAt, edi, esi, ebp, reserved, ebx, edx, ecx, eax, ip, cs, flags, esp, ss,
      Option.bind_eq_bind, Option.bind_some]
    rfl

/-- `pushad` and the pushes of the processor. -/
theorem pushad_enterKernel (user : Cpu) (memory : Memory) :
    pushad (enterKernel user memory) = pushes [user.ss, user.esp, user.eflags, user.cs, user.eip,
      user.eax, user.ecx, user.edx, user.ebx, kernelStackTop - 20, user.ebp, user.esi, user.edi]
        (emptyStack user memory) := by
  have esp : (enterKernel user memory).cpu.esp = kernelStackTop - 20 :=
    pushes_esp [user.ss, user.esp, user.eflags, user.cs, user.eip] (emptyStack user memory)
  rw [pushad, esp]
  rfl

theorem pushad_enterKernel_esp (user : Cpu) (memory : Memory) :
    (pushad (enterKernel user memory)).cpu.esp = kernelStackTop - 52 := by
  rw [pushad_enterKernel, pushes_esp]
  rfl

/-- The stack with the arguments and the return address. -/
theorem entry_eq_pushes (user : Cpu) (memory : Memory) (argument site : Nat) :
    (((pushad (enterKernel user memory)).push (pushad (enterKernel user memory)).cpu.esp).push
      argument).push site = pushes (enteredStack user argument site) (emptyStack user memory) := by
  rw [pushad_enterKernel_esp, pushad_enterKernel]
  rfl

theorem interruptEntry_exec (user : Cpu) (memory : Memory) (number site : Nat) :
    exec (interruptEntry number site) (enterKernel user memory) =
      some (pushes (enteredStack user number site) (emptyStack user memory)) := by
  have first : step .pushad (enterKernel user memory) =
      some (pushad (enterKernel user memory)) := rfl
  rw [interruptEntry, exec_cons first, ← entry_eq_pushes]
  generalize pushad (enterKernel user memory) = state
  rfl

end Frame

section Return

/-- The memory holds a `struct registers` at the address. -/
def HoldsRegisters (registers : Registers) (memory : Memory) (address : Nat) : Prop :=
  ∀ (index : Nat) (inside : index < 12),
    memory (address + 4 * index) = some (registers.dwords.get ⟨index, inside⟩)

variable {registers : Registers} {memory : Memory} {address : Nat}

theorem HoldsRegisters.of_above (holds : HoldsRegisters registers memory address)
    {memory' : Memory} (same : ∀ other, address ≤ other → memory' other = memory other) :
    HoldsRegisters registers memory' address := fun index inside => by
  rw [same _ (Nat.le_add_right _ _)]
  exact holds index inside

/-- `task_return` while it pushes values for `iret`: `ebx` points to the registers, above the
stack, and `ebp` to the place of the return address. -/
structure Returning (registers : Registers) (address top cs : Nat) (values : List Nat)
    (state : State) : Prop where
  ebx : state.cpu.ebx = address
  ebp : state.cpu.ebp = top
  cs : state.cpu.cs = cs
  holds : HoldsRegisters registers state.memory address
  argument : state.memory (top + 4) = some address
  pushed : Pushed top values state
  below : top < address

namespace Returning

variable {top cs : Nat} {values : List Nat} {state : State}

theorem dword (returning : Returning registers address top cs values state) (index : Nat)
    (inside : index < 12) :
    state.dword .ebx (4 * index) = some (registers.dwords.get ⟨index, inside⟩) := by
  rw [State.dword, Cpu.get, returning.ebx]
  exact returning.holds index inside

theorem dword_argument (returning : Returning registers address top cs values state) :
    state.dword .ebp 4 = some address := by
  rw [State.dword, Cpu.get, returning.ebp]
  exact returning.argument

theorem push (returning : Returning registers address top cs values state)
    (space : 4 * (values.length + 1) ≤ top) (value : Nat) :
    Returning registers address top cs (values ++ [value]) (state.push value) := by
  have esp := returning.pushed.esp
  have room : 4 ≤ state.cpu.esp := by omega
  have below := returning.below
  have above : ∀ other, top ≤ other → (state.push value).memory other = state.memory other :=
    fun other after => Function.update_of_ne (by omega) ..
  exact ⟨returning.ebx, returning.ebp, returning.cs,
    returning.holds.of_above fun other after => above other (below.le.trans after),
    (above _ (Nat.le_add_right _ _)).trans returning.argument, returning.pushed.push room value,
    below⟩

theorem setEax (returning : Returning registers address top cs values state) (value : Nat) :
    Returning registers address top cs values
      { state with cpu := state.cpu.set .eax value } :=
  ⟨returning.ebx, returning.ebp, returning.cs, returning.holds, returning.argument,
    ⟨returning.pushed.esp, returning.pushed.memory⟩, returning.below⟩

end Returning

/-- The values that `task_return` leaves on the stack: those for `iret`, the argument of the call
and the return address. -/
def returnStack (registers : Registers) (address site : Nat) : List Nat :=
  [registers.ss, registers.esp, registers.flags ||| 0x200, registers.cs, registers.ip, address, site]

theorem taskReturnFrame_exec (holds : HoldsRegisters registers memory address) {cpu : Cpu}
    (below : cpu.esp < address) (room : 28 ≤ cpu.esp)
    (argument : memory (cpu.esp + 4) = some address) (site : Nat) :
    ∃ state, exec (taskReturnFrame site) ⟨cpu, memory⟩ = some state ∧
      Returning registers address cpu.esp cpu.cs (returnStack registers address site) state := by
  have loaded : (State.mk { cpu with ebp := cpu.esp } memory).dword .ebp 4 = some address :=
    argument
  have first : Returning registers address cpu.esp cpu.cs []
      ⟨{ cpu with ebp := cpu.esp, ebx := address }, memory⟩ :=
    ⟨rfl, rfl, rfl, holds, argument, ⟨rfl, nofun⟩, below⟩
  have second := first.push (show 4 * 1 ≤ cpu.esp by omega) registers.ss
  have third := second.push (show 4 * 2 ≤ cpu.esp by omega) registers.esp
  have fourth := (third.setEax registers.flags).setEax (registers.flags ||| 0x200)
  have fifth := fourth.push (show 4 * 3 ≤ cpu.esp by omega) (registers.flags ||| 0x200)
  have sixth := fifth.push (show 4 * 4 ≤ cpu.esp by omega) registers.cs
  have seventh := sixth.push (show 4 * 5 ≤ cpu.esp by omega) registers.ip
  have eighth := seventh.setEax ((registers.flags ||| 0x200) / 65536 * 65536 + registers.ss % 65536)
  have last := (eighth.push (show 4 * 6 ≤ cpu.esp by omega) address).push
    (show 4 * 7 ≤ cpu.esp by omega) site
  refine ⟨_, exec_step rfl (exec_step (step_load loaded)
    (exec_step (step_pushAt (first.dword 11 (by decide)))
    (exec_step (step_pushAt (second.dword 10 (by decide)))
    (exec_step (step_load (third.dword 9 (by decide)))
    (exec_step rfl (exec_step rfl
    (exec_step (step_pushAt (fifth.dword 8 (by decide)))
    (exec_step (step_pushAt (sixth.dword 7 (by decide)))
    (exec_step (step_loadAx (seventh.dword 11 (by decide)))
    (exec_step rfl (exec_step rfl (exec_step rfl (exec_step rfl
    (exec_step (step_pushAt eighth.dword_argument) (exec_step rfl rfl))))))))))))))), last⟩

/-- `restore_general_purpose_registers` puts the registers back and returns; only the dword below
the return address is written. -/
theorem restoreGeneralPurposeRegisters_exec (holds : HoldsRegisters registers memory address)
    {cpu : Cpu} {base site : Nat} (esp : cpu.esp = base + 4) (below : base < address)
    (returns : memory (base + 4) = some site) (argument : memory (base + 8) = some address) :
    exec (restoreGeneralPurposeRegisters site) ⟨cpu, memory⟩ = some
      ⟨{ cpu with
          edi := registers.edi, esi := registers.esi, ebp := registers.ebp, ebx := registers.ebx,
          edx := registers.edx, ecx := registers.ecx, eax := registers.eax, esp := base + 8 },
        Function.update memory base (some cpu.ebp)⟩ := by
  have holds' : HoldsRegisters registers (Function.update memory base (some cpu.ebp)) address :=
    holds.of_above fun other after => Function.update_of_ne (by omega) ..
  have edi : Function.update memory base (some cpu.ebp) address = some registers.edi :=
    holds' 0 (by decide)
  have esi : Function.update memory base (some cpu.ebp) (address + 4) = some registers.esi :=
    holds' 1 (by decide)
  have ebp : Function.update memory base (some cpu.ebp) (address + 8) = some registers.ebp :=
    holds' 2 (by decide)
  have ebx : Function.update memory base (some cpu.ebp) (address + 12) = some registers.ebx :=
    holds' 3 (by decide)
  have edx : Function.update memory base (some cpu.ebp) (address + 16) = some registers.edx :=
    holds' 4 (by decide)
  have ecx : Function.update memory base (some cpu.ebp) (address + 20) = some registers.ecx :=
    holds' 5 (by decide)
  have eax : Function.update memory base (some cpu.ebp) (address + 24) = some registers.eax :=
    holds' 6 (by decide)
  have site' : Function.update memory base (some cpu.ebp) (base + 4) = some site :=
    (Function.update_of_ne (by omega) ..).trans returns
  have argument' : Function.update memory base (some cpu.ebp) (base + 8) = some address :=
    (Function.update_of_ne (by omega) ..).trans argument
  simp only [restoreGeneralPurposeRegisters, exec, step, State.dword, State.push, Cpu.get, Cpu.set,
    esp, Nat.add_sub_cancel, Nat.add_zero, Option.bind_some, Option.map_some, argument', edi, esi,
    ebp, edx, ecx, eax, ebx, site', if_pos]

/-- **`task_return`** continues in the user mode with the registers. -/
theorem taskReturn_exec (holds : HoldsRegisters registers memory address) {cpu : Cpu}
    (below : cpu.esp < address) (room : 32 ≤ cpu.esp)
    (argument : memory (cpu.esp + 4) = some address)
    (outer : Cpu.privilege registers.cs ≠ Cpu.privilege cpu.cs) (site : Nat) :
    ∃ state, exec (taskReturn site) ⟨cpu, memory⟩ = some state ∧
      state.cpu = enableInterrupts registers.cpu := by
  obtain ⟨⟨inner, pushed⟩, frame, returning⟩ :=
    taskReturnFrame_exec holds below (by omega) argument site
  have esp := returning.pushed.esp
  dsimp only [returnStack, List.length] at esp
  obtain ⟨base, innerEsp⟩ : ∃ base, inner.esp = base + 4 := ⟨inner.esp - 4, by omega⟩
  -- The dwords on the stack, from its top on.
  have read : ∀ (index disp : Nat) (inside : index < 7), disp + 4 * (index + 1) = 28 →
      pushed (base + 4 + disp) =
        some ((returnStack registers address site).get ⟨index, inside⟩) := by
    intro index disp inside here
    have dword := @Pushed.dword _ _ _ returning.pushed index disp inside here
    rwa [State.dword, Cpu.get, innerEsp] at dword
  have above : ∀ other, base < other →
      Function.update pushed base (some inner.ebp) other = pushed other :=
    fun other after => Function.update_of_ne (Nat.ne_of_gt after) ..
  have restored := @restoreGeneralPurposeRegisters_exec _ _ _ returning.holds inner base site
    innerEsp (by omega) (read 6 0 (by decide) rfl) (read 5 4 (by decide) rfl)
  have returned := @iret_outer ⟨{ inner with
      edi := registers.edi, esi := registers.esi, ebp := registers.ebp, ebx := registers.ebx,
      edx := registers.edx, ecx := registers.ecx, eax := registers.eax, esp := base + 8 + 4 },
    Function.update pushed base (some inner.ebp)⟩ registers.ip registers.cs
    (registers.flags ||| 0x200) registers.esp registers.ss
    ((above (base + 12) (by omega)).trans (read 4 8 (by decide) rfl))
    ((above (base + 16) (by omega)).trans (read 3 12 (by decide) rfl))
    ((above (base + 20) (by omega)).trans (read 2 16 (by decide) rfl))
    ((above (base + 24) (by omega)).trans (read 1 20 (by decide) rfl))
    ((above (base + 28) (by omega)).trans (read 0 24 (by decide) rfl))
    (by rw [show inner.cs = cpu.cs from returning.cs]; exact outer)
  obtain ⟨final, last, user⟩ : ∃ final, exec [.add .esp 4, .iret] ⟨{ inner with
      edi := registers.edi, esi := registers.esi, ebp := registers.ebp, ebx := registers.ebx,
      edx := registers.edx, ecx := registers.ecx, eax := registers.eax, esp := base + 8 },
        Function.update pushed base (some inner.ebp)⟩ = some final ∧
          final.cpu = enableInterrupts registers.cpu :=
    ⟨_, exec_step rfl (exec_step returned rfl), rfl⟩
  refine ⟨final, ?_, user⟩
  rw [taskReturn, exec_append, frame, Option.bind_some, exec_append, restored, Option.bind_some,
    last]

/-- The registers of a task lie in its `struct task`. -/
theorem holdsRegisters_of_task {live : List Allocation} {kernel : Kernel}
    (inv : KernelInvariant kernelHeapRegion live kernel) {task : Nat} {value : Task}
    (here : kernel.objs task = some (.task value)) (stack : Nat → Nat) :
    HoldsRegisters value.registers (kernelMemory kernel stack) (task + taskRegistersOffset) := by
  intro index inside
  have present : (kernel.objs task).isSome := by
    rw [here]
    rfl
  have aligned := (inv.obj_placed present).1
  have above := inv.obj_above present
  have start : kernelHeapRegion.start = 16777216 := rfl
  unfold peachosHeapBlockSize at aligned
  have block : (task + taskRegistersOffset + 4 * index) / peachosHeapBlockSize *
      peachosHeapBlockSize = task := by
    unfold taskRegistersOffset peachosHeapBlockSize
    omega
  have position : (task + taskRegistersOffset + 4 * index) % peachosHeapBlockSize / 4 =
      index + 1 := by
    unfold taskRegistersOffset peachosHeapBlockSize
    omega
  have length : value.registers.dwords.length = 12 := rfl
  rw [kernelMemory, if_neg (by unfold kernelStackTop taskRegistersOffset; omega), block, here,
    position]
  dsimp only [Task.dwords]
  rw [List.cons_append, List.getElem?_cons_succ, List.getElem?_append_left (by rw [length]; exact inside)]
  exact List.getElem?_eq_getElem (by rw [length]; exact inside)

end Return

end Peachos
