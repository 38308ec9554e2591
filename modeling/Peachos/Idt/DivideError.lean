import Peachos.Idt.Delivery
import Peachos.Kernel.Terminal

/-! # Division by zero

`idt_init` makes the C function `idt_zero` itself the handler of vector 0. It prints a message and
ends in `ret`, which takes the address of the program from the frame of the interrupt and leaves the
rest of the frame on the stack: the program goes on with the privileges of the kernel
(`divideError_privileged`). Each time the cursor moves to a new row, also below the screen, so this
holds while the rows stay below the kernel in the memory.
-/

namespace Peachos

open Wrapping X86

/-- `video_mem` after `terminal_initialize`. -/
abbrev videoMemory : Nat := 0xB8000

/-- The address that the kernel is loaded at. -/
abbrev kernelStart : Nat := 0x100000

/-- The stack that `_start` sets up, between the variables of the kernel and the stack of its
interrupts. -/
abbrev startStackTop : Nat := 0x200000

/-- The rows of the video memory that end below the kernel. -/
abbrev rowsBelowKernel : Nat := 1843

/-- The address of the first of the two bytes of a character. -/
def CellStore.address (store : CellStore) : Nat := videoMemory + 2 * store.index

/-- The characters that were stored since an earlier state. -/
def Terminal.storesSince (terminal start : Terminal) : List CellStore :=
  terminal.stores.drop start.stores.length

def divideByZeroError : List UInt8 :=
  ['D', 'i', 'v', 'i', 'd', 'e', ' ', 'b', 'y', ' ', 'z', 'e', 'r', 'o', ' ', 'e', 'r', 'r', 'o',
    'r'].map Char.toUInt8

def idtZero (terminal : Terminal) : Terminal := print terminal (divideByZeroError ++ [newline])

/-- The addresses of `terminal_row` and `terminal_col`, which the linker chooses. -/
structure TerminalSymbols where
  terminalRow : Nat
  terminalCol : Nat

/-- The linker places the variables in the kernel. -/
structure TerminalSymbols.Placed (statics : TerminalSymbols) : Prop where
  row : statics.terminalRow < startStackTop
  column : statics.terminalCol < startStackTop

/-- The dword of the memory that an address is in. -/
def dwordOf (address : Nat) : Nat := address / 4 * 4

/-- `idt_zero` was entered at `entered` and has come to its `ret` at `body`. As a C function it keeps
the segments and its caller's part of the stack, and stores nothing there or above it but the
characters of the message and the variables of the cursor. -/
structure RunsIdtZero (statics : TerminalSymbols) (terminal : Terminal) (entered : State)
    (next : Terminal) (body : State) : Prop where
  prints : next = idtZero terminal
  esp : body.cpu.esp = entered.cpu.esp
  cs : body.cpu.cs = entered.cpu.cs
  ss : body.cpu.ss = entered.cpu.ss
  memory : ∀ address, entered.cpu.esp ≤ address →
    (∀ store ∈ next.storesSince terminal, address ≠ dwordOf store.address) →
    address ≠ dwordOf statics.terminalRow → address ≠ dwordOf statics.terminalCol →
    body.memory address = entered.memory address

/-- A program divided by zero or executed `int 0`, went on after `idt_zero`, and divided by zero
there `count` times more. Every time the gate of vector 0 led to `idt_zero`. -/
inductive DivideErrors (symbols : Symbols) (statics : TerminalSymbols) (tables : Tables)
    (user : Cpu) (start : Terminal) : (count : Nat) → Terminal → State → Prop
  | first {software : Bool} {entry : Entry} {memory : Memory} {terminal : Terminal}
      {body state : State} (delivered : tables.deliver 3 software 0 = .ok entry)
      (handler : entry.eip = symbols.idtZero.toNat)
      (runs : RunsIdtZero statics start (entry.state user memory) terminal body)
      (returns : ret body = some state) :
      DivideErrors symbols statics tables user start 0 terminal state
  | again {count : Nat} {entry : Entry} {terminal next : Terminal} {before body state : State}
      (earlier : DivideErrors symbols statics tables user start count terminal before)
      (delivered : tables.deliver (Cpu.privilege before.cpu.cs) false 0 = .ok entry)
      (handler : entry.eip = symbols.idtZero.toNat)
      (runs : RunsIdtZero statics terminal (entry.state before.cpu before.memory) next body)
      (returns : ret body = some state) :
      DivideErrors symbols statics tables user start (count + 1) next state

/-- The program goes on in the kernel mode, on the stack of the kernel. -/
structure Privileged (user : Cpu) (count : Nat) (state : State) : Prop where
  eip : state.cpu.eip = user.eip
  cs : state.cpu.cs = kernelCodeSelector
  ss : state.cpu.ss = kernelDataSelector
  esp : state.cpu.esp = kernelStackTop - 16 - 8 * count

section Message

variable {terminal : Terminal} {row column : Nat}

/-- A cell of a row below the kernel. -/
theorem CellStore.belowKernel {store : CellStore} (inside : store.x < vgaWidth)
    (fits : store.y < rowsBelowKernel) : store.address + 2 ≤ kernelStart := by
  unfold CellStore.address CellStore.index videoMemory kernelStart rowsBelowKernel vgaWidth at *
  omega

/-- **The message** ends its row, and the rows that it fills before. -/
theorem idtZero_run (here : terminal.At (row, column)) :
    (idtZero terminal).At (row + (column + 20) / vgaWidth + 1, 0) ∧
      ∃ stored, (idtZero terminal).stores = terminal.stores ++ stored ∧
        ∀ store ∈ stored, store.x < vgaWidth ∧ store.y ≤ row + (column + 20) / vgaWidth := by
  have clean : newline ∉ divideByZeroError := by decide
  obtain ⟨next, stores⟩ := print_run (divideByZeroError ++ [newline]) here
  rw [List.foldl_append, foldl_line clean here.inside] at next
  exact ⟨next, _, stores, fun _ member => mem_textStores_line clean here.inside member⟩

theorem idtZero_storesSince (here : terminal.At (row, column))
    (fits : row + (column + 20) / vgaWidth < rowsBelowKernel) :
    ∀ store ∈ (idtZero terminal).storesSince terminal, store.address + 2 ≤ kernelStart := by
  obtain ⟨_, stored, stores, within⟩ := idtZero_run here
  intro store member
  rw [Terminal.storesSince, stores, List.drop_left] at member
  exact CellStore.belowKernel (within store member).1 ((within store member).2.trans_lt fits)

end Message

section Returns

variable {statics : TerminalSymbols} {terminal next : Terminal} {user : Cpu} {memory : Memory}
  {entered body state : State} {row column eip : Nat}

/-- While the message stays below the kernel, `idt_zero` finds the address it was entered with. -/
theorem RunsIdtZero.returns (runs : RunsIdtZero statics terminal entered next body)
    (placed : statics.Placed) (here : terminal.At (row, column))
    (fits : row + (column + 20) / vgaWidth < rowsBelowKernel)
    (above : startStackTop ≤ entered.cpu.esp)
    (top : entered.memory entered.cpu.esp = some eip) :
    ret body = some { body with cpu := { body.cpu with eip := eip, esp := body.cpu.esp + 4 } } := by
  have row := placed.row
  have column := placed.column
  have kept := runs.memory entered.cpu.esp le_rfl
    (fun store member => by
      have below := idtZero_storesSince here fits store (runs.prints ▸ member)
      unfold dwordOf kernelStart startStackTop at *
      omega)
    (by unfold dwordOf; omega) (by unfold dwordOf; omega)
  have read : body.dword .esp 0 = some eip := by
    rw [State.dword, Cpu.get, runs.esp]
    exact kept.trans top
  rw [ret, read]
  rfl

/-- The address of the program lies on top of the frame, also if the kernel is interrupted. -/
theorem frame_eip_first (user : Cpu) (memory : Memory) :
    (enterKernel user memory).memory (enterKernel user memory).cpu.esp = some user.eip := by
  have esp : (enterKernel user memory).cpu.esp = kernelStackTop - 20 :=
    pushes_esp [user.ss, user.esp, user.eflags, user.cs, user.eip] (emptyStack user memory)
  rw [esp]
  exact pushes_memory [user.ss, user.esp, user.eflags, user.cs, user.eip]
    (show 4 < 5 by decide) (by decide : 4 * 5 ≤ kernelStackTop)

/-- The kernel mode with the frame of an interrupt on its stack. -/
def interruptedAgain (cpu : Cpu) (memory : Memory) : State :=
  pushes [cpu.eflags, cpu.cs, cpu.eip] ⟨{ cpu with cs := kernelCodeSelector }, memory⟩

theorem interruptedAgain_esp (cpu : Cpu) (memory : Memory) :
    (interruptedAgain cpu memory).cpu.esp = cpu.esp - 12 :=
  pushes_esp _ _

theorem frame_eip_again {cpu : Cpu} (room : 12 ≤ cpu.esp) (memory : Memory) :
    (interruptedAgain cpu memory).memory (interruptedAgain cpu memory).cpu.esp =
      some cpu.eip := by
  rw [interruptedAgain_esp]
  exact pushes_memory [cpu.eflags, cpu.cs, cpu.eip] (show 2 < 3 by decide) room

/-- What `idt_zero` changes for its caller. -/
theorem RunsIdtZero.left (runs : RunsIdtZero statics terminal entered next body)
    (placed : statics.Placed) (here : terminal.At (row, column))
    (fits : row + (column + 20) / vgaWidth < rowsBelowKernel)
    (above : startStackTop ≤ entered.cpu.esp) (top : entered.memory entered.cpu.esp = some eip)
    (returns : ret body = some state) :
    state.cpu.eip = eip ∧ state.cpu.cs = entered.cpu.cs ∧ state.cpu.ss = entered.cpu.ss ∧
      state.cpu.esp = entered.cpu.esp + 4 := by
  rw [runs.returns placed here fits above top] at returns
  cases returns
  exact ⟨rfl, runs.cs, runs.ss, congrArg (· + 4) runs.esp⟩

/-- The program goes on, and all that was printed since `start` lies below the kernel: the first
message ended in `row`. -/
structure GoesOn (user : Cpu) (start : Terminal) (row count : Nat) (terminal : Terminal)
    (state : State) : Prop where
  privileged : Privileged user count state
  cursor : terminal.At (row + count + 1, 0)
  stores : ∃ stored, terminal.stores = start.stores ++ stored ∧
    ∀ store ∈ stored, store.address + 2 ≤ kernelStart

/-- The program goes on after its first division by zero, or its `int 0`. -/
theorem goesOn_first (placed : statics.Placed) (here : terminal.At (row, column))
    (fits : row + (column + 20) / vgaWidth < rowsBelowKernel)
    (runs : RunsIdtZero statics terminal (enterKernel user memory) next body)
    (returns : ret body = some state) :
    GoesOn user terminal (row + (column + 20) / vgaWidth) 0 next state := by
  have esp : (enterKernel user memory).cpu.esp = kernelStackTop - 20 :=
    pushes_esp [user.ss, user.esp, user.eflags, user.cs, user.eip] (emptyStack user memory)
  obtain ⟨eip, cs, ss, popped⟩ := runs.left placed here fits (by rw [esp]; decide)
    (frame_eip_first user memory) returns
  obtain ⟨moved, stored, stores, within⟩ := idtZero_run here
  rw [← runs.prints] at moved stores
  refine ⟨⟨eip, cs, ss, ?_⟩, moved, stored, stores, fun store member => ?_⟩
  · rw [popped, esp]
    rfl
  · exact CellStore.belowKernel (within store member).1 ((within store member).2.trans_lt fits)

/-- Taking an interrupt in the kernel mode leaves eight bytes on the stack after `ret`. -/
theorem GoesOn.again {start : Terminal} {count : Nat} {before : State}
    (goesOn : GoesOn user start row count terminal before) (placed : statics.Placed)
    (fits : row + (count + 1) < rowsBelowKernel)
    (runs : RunsIdtZero statics terminal (interruptedAgain before.cpu before.memory) next body)
    (returns : ret body = some state) : GoesOn user start row (count + 1) next state := by
  have esp := goesOn.privileged.esp
  have room : startStackTop + 12 ≤ before.cpu.esp := by
    unfold startStackTop kernelStackTop rowsBelowKernel at *
    omega
  have inside : row + count + 1 + (0 + 20) / vgaWidth < rowsBelowKernel := fits
  obtain ⟨eip, cs, ss, popped⟩ := runs.left placed goesOn.cursor inside
    (by rw [interruptedAgain_esp]; omega) (frame_eip_again (by omega) _) returns
  obtain ⟨moved, stored, stores, within⟩ := idtZero_run goesOn.cursor
  rw [← runs.prints] at moved stores
  obtain ⟨earlier, since, below⟩ := goesOn.stores
  refine ⟨⟨eip.trans goesOn.privileged.eip, cs, ss.trans goesOn.privileged.ss, ?_⟩, moved,
    earlier ++ stored, ?_, fun store member => ?_⟩
  · rw [popped, interruptedAgain_esp]
    unfold startStackTop kernelStackTop at *
    omega
  · rw [stores, since, List.append_assoc]
  · rcases List.mem_append.mp member with old | new
    · exact below store old
    · exact CellStore.belowKernel (within store new).1 ((within store new).2.trans_lt inside)

end Returns

/-- Every interrupt with vector 0 enters `idt_zero`. -/
def EntersIdtZero (symbols : Symbols) (tables : Tables) : Prop :=
  ∀ level software, level = 0 ∨ level = 3 → ∃ entry, tables.deliver level software 0 = .ok entry ∧
    entry.eip = symbols.idtZero.toNat

/-- **Division by zero.** With the tables that `kernel_main` sets up, a program that divides by zero,
or executes `int 0`, enters `idt_zero` and goes on with the privileges of the kernel. Every further
attempt of the same division leaves eight more bytes on the stack of the kernel, while the row that
the message ends in lies below the kernel; nothing of the kernel is overwritten until then. -/
theorem divideError_privileged {symbols : Symbols} (placed : symbols.Placed)
    {statics : TerminalSymbols} (placed' : statics.Placed) (idt : IdtState) (before : Tables) :
    ∃ tables, kernelMainTables symbols idt before = some tables ∧ EntersIdtZero symbols tables ∧
      ∀ user start row column, start.At (row, column) → ∀ count terminal state,
        row + (column + 20) / vgaWidth + count < rowsBelowKernel →
        DivideErrors symbols statics tables user start count terminal state →
        Privileged user count state ∧
          ∀ store ∈ terminal.storesSince start, store.address + 2 ≤ kernelStart := by
  obtain ⟨tables, loaded, ready⟩ := kernelMainTables_ready placed idt before
  refine ⟨tables, loaded, ?_, fun user start row column here count terminal state fits errors => ?_⟩
  · rintro level software (rfl | rfl)
    · exact ⟨_, ready.deliver_kernel (by decide) software, rfl⟩
    · exact ⟨_, ready.deliver_user (by decide) software, rfl⟩
  · have goesOn : GoesOn user start (row + (column + 20) / vgaWidth) count terminal state := by
      induction errors with
      | first delivered _ runs returns =>
          rw [ready.deliver_user (by decide)] at delivered
          cases delivered
          exact goesOn_first placed' here fits runs returns
      | again earlier delivered _ runs returns ih =>
          have goesOn := ih (by omega)
          rw [goesOn.privileged.cs, show Cpu.privilege kernelCodeSelector = 0 from rfl,
            ready.deliver_kernel (by decide)] at delivered
          cases delivered
          exact goesOn.again placed' fits runs returns
    obtain ⟨stored, since, below⟩ := goesOn.stores
    refine ⟨goesOn.privileged, fun store member => below store ?_⟩
    rwa [Terminal.storesSince, since, List.drop_left] at member

/-- A body that keeps all of the memory but what it has to store. -/
theorem runsIdtZero_kept (statics : TerminalSymbols) (terminal : Terminal) (entered : State) :
    RunsIdtZero statics terminal entered (idtZero terminal) entered :=
  ⟨rfl, rfl, rfl, rfl, fun _ _ _ _ _ => rfl⟩

/-- A program at `0x400010` that divides by zero twice, on an empty screen. -/
theorem divideError_privileged_twice : ∃ tables terminal state,
    kernelMainTables someSymbols ⟨fun _ => 0, ⟨0, 0⟩, [], [], ⟨0, 0⟩⟩
      ⟨fun _ => 0, ⟨0, 0⟩, ⟨0, 0⟩, ⟨0, 0⟩⟩ = some tables ∧
    DivideErrors someSymbols ⟨0x10A000, 0x10A002⟩ tables
      ⟨0, 0, 0, 0x3FE000, 0, 0, 0, 0, 0x400010, 0x1b, 0x202, 0x23⟩ { videoMem := fun _ => 0 } 1
      terminal state ∧
    Privileged ⟨0, 0, 0, 0x3FE000, 0, 0, 0, 0, 0x400010, 0x1b, 0x202, 0x23⟩ 1 state := by
  have statics : TerminalSymbols.Placed ⟨0x10A000, 0x10A002⟩ :=
    ⟨show 0x10A000 < 0x200000 by decide, show 0x10A002 < 0x200000 by decide⟩
  obtain ⟨tables, loaded, _, privileged⟩ := divideError_privileged someSymbols_placed statics
    ⟨fun _ => 0, ⟨0, 0⟩, [], [], ⟨0, 0⟩⟩ ⟨fun _ => 0, ⟨0, 0⟩, ⟨0, 0⟩, ⟨0, 0⟩⟩
  obtain ⟨tables', loaded', ready⟩ := kernelMainTables_ready someSymbols_placed
    ⟨fun _ => 0, ⟨0, 0⟩, [], [], ⟨0, 0⟩⟩ ⟨fun _ => 0, ⟨0, 0⟩, ⟨0, 0⟩, ⟨0, 0⟩⟩
  obtain rfl := Option.some.inj (loaded.symm.trans loaded')
  obtain ⟨user, same⟩ : ∃ user : Cpu, user =
    ⟨0, 0, 0, 0x3FE000, 0, 0, 0, 0, 0x400010, 0x1b, 0x202, 0x23⟩ := ⟨_, rfl⟩
  obtain ⟨start, here, empty⟩ : ∃ start : Terminal, start.At (0, 0) ∧
    start = { videoMem := fun _ => 0 } := ⟨_, ⟨rfl, rfl, show 0 < 80 by decide⟩, rfl⟩
  have esp : (enterKernel user fun _ => none).cpu.esp = kernelStackTop - 20 :=
    pushes_esp [user.ss, user.esp, user.eflags, user.cs, user.eip]
      (emptyStack user fun _ => none)
  have runs := runsIdtZero_kept ⟨0x10A000, 0x10A002⟩ start (enterKernel user fun _ => none)
  obtain ⟨middle, returns⟩ : ∃ middle, ret (enterKernel user fun _ => none) = some middle :=
    ⟨_, runs.returns statics here (by decide) (by rw [esp]; decide) (frame_eip_first user _)⟩
  have first : DivideErrors someSymbols ⟨0x10A000, 0x10A002⟩ tables user start 0 _ middle :=
    .first (ready.deliver_user (by decide) false) rfl runs returns
  have goesOn := goesOn_first statics here (by decide) runs returns
  have delivered : tables.deliver (Cpu.privilege middle.cpu.cs) false 0 =
      .ok ⟨kernelCodeSelector, (someSymbols.handler 0).toNat, none, false⟩ := by
    rw [goesOn.privileged.cs]
    exact ready.deliver_kernel (by decide) false
  have room : startStackTop + 12 ≤ middle.cpu.esp := by
    rw [goesOn.privileged.esp]
    decide
  have runs' := runsIdtZero_kept ⟨0x10A000, 0x10A002⟩ (idtZero start)
    (interruptedAgain middle.cpu middle.memory)
  have second : DivideErrors someSymbols ⟨0x10A000, 0x10A002⟩ tables user start 1 _ _ :=
    .again first delivered rfl runs' (runs'.returns statics goesOn.cursor (by decide)
      (by rw [interruptedAgain_esp]; omega) (frame_eip_again (by omega) _))
  rw [← same, ← empty]
  exact ⟨tables, _, _, loaded, second, (privileged user start 0 0 here 1 _ _ (by decide) second).1⟩

end Peachos
