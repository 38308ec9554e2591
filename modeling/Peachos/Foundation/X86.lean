import Mathlib.Logic.Function.Basic
import Mathlib.Tactic.Basic

/-! # A part of the x86

The instructions that save and restore the state of a program: moves, the stack, `pushad`,
`popad`, and the interrupts between the user and the kernel mode. Memory is accessed by aligned
dwords. The data segment registers are left out, and so is `eip` in the kernel mode, where code
is executed in a straight line.
-/

namespace X86

inductive Reg where
  | edi
  | esi
  | ebp
  | esp
  | ebx
  | edx
  | ecx
  | eax
  deriving DecidableEq, Repr

structure Cpu where
  edi : Nat
  esi : Nat
  ebp : Nat
  esp : Nat
  ebx : Nat
  edx : Nat
  ecx : Nat
  eax : Nat
  eip : Nat
  cs : Nat
  eflags : Nat
  ss : Nat
  deriving DecidableEq, Repr

namespace Cpu

def get (cpu : Cpu) : Reg → Nat
  | .edi => cpu.edi
  | .esi => cpu.esi
  | .ebp => cpu.ebp
  | .esp => cpu.esp
  | .ebx => cpu.ebx
  | .edx => cpu.edx
  | .ecx => cpu.ecx
  | .eax => cpu.eax

def set (cpu : Cpu) (reg : Reg) (value : Nat) : Cpu :=
  match reg with
  | .edi => { cpu with edi := value }
  | .esi => { cpu with esi := value }
  | .ebp => { cpu with ebp := value }
  | .esp => { cpu with esp := value }
  | .ebx => { cpu with ebx := value }
  | .edx => { cpu with edx := value }
  | .ecx => { cpu with ecx := value }
  | .eax => { cpu with eax := value }

/-- The privilege level, from the selector of the code segment. -/
def privilege (cs : Nat) : Nat := cs % 4

end Cpu

/-- The dwords that can be read, by address. -/
abbrev Memory := Nat → Option Nat

structure State where
  cpu : Cpu
  memory : Memory

namespace State

/-- Push a dword. The stack is taken to have room for it. -/
def push (value : Nat) (state : State) : State where
  cpu := { state.cpu with esp := state.cpu.esp - 4 }
  memory := Function.update state.memory (state.cpu.esp - 4) (some value)

@[simp] theorem push_esp (value : Nat) (state : State) :
    (state.push value).cpu.esp = state.cpu.esp - 4 := rfl

@[simp] theorem push_eax (value : Nat) (state : State) :
    (state.push value).cpu.eax = state.cpu.eax := rfl

/-- The dword at an offset from a register. -/
def dword (state : State) (base : Reg) (disp : Nat) : Option Nat :=
  state.memory (state.cpu.get base + disp)

end State

inductive Instr where
  /-- `mov dst, src` -/
  | mov (dst src : Reg)
  /-- `mov dst, [base+disp]` -/
  | load (dst base : Reg) (disp : Nat)
  /-- `mov ax, [base+disp]` -/
  | loadAx (base : Reg) (disp : Nat)
  /-- `mov dst, [address]` -/
  | loadAt (dst : Reg) (address : Nat)
  /-- `mov [address], src` -/
  | storeAt (address : Nat) (src : Reg)
  /-- `mov` from `ax` to a data segment register -/
  | segment
  /-- `or dst, value` -/
  | or (dst : Reg) (value : Nat)
  /-- `add dst, value` -/
  | add (dst : Reg) (value : Nat)
  | push (src : Reg)
  /-- `push dword [base+disp]` -/
  | pushAt (base : Reg) (disp : Nat)
  /-- `push dword value` -/
  | pushImm (value : Nat)
  | pushad
  | popad
  /-- `call`, which pushes the address after it -/
  | call (site : Nat)
  /-- `ret` to the call at the given address -/
  | ret (site : Nat)
  | iret
  deriving DecidableEq, Repr

/-- `pushad`, which pushes the `esp` from before. -/
def pushad (state : State) : State :=
  ((((((((state.push state.cpu.eax).push state.cpu.ecx).push state.cpu.edx).push
    state.cpu.ebx).push state.cpu.esp).push state.cpu.ebp).push state.cpu.esi).push state.cpu.edi)

/-- `popad`, which skips `esp`. -/
def popad (state : State) : Option State := do
  let edi ← state.dword .esp 0
  let esi ← state.dword .esp 4
  let ebp ← state.dword .esp 8
  let ebx ← state.dword .esp 16
  let edx ← state.dword .esp 20
  let ecx ← state.dword .esp 24
  let eax ← state.dword .esp 28
  some { state with cpu := { state.cpu with
    edi := edi, esi := esi, ebp := ebp, ebx := ebx, edx := edx, ecx := ecx, eax := eax,
    esp := state.cpu.esp + 32 } }

/-- `iret`, which also restores the stack if it returns to another privilege level. -/
def iret (state : State) : Option State := do
  let eip ← state.dword .esp 0
  let cs ← state.dword .esp 4
  let eflags ← state.dword .esp 8
  if Cpu.privilege cs = Cpu.privilege state.cpu.cs then
    some { state with cpu := { state.cpu with
      eip := eip, cs := cs, eflags := eflags, esp := state.cpu.esp + 12 } }
  else do
    let esp ← state.dword .esp 12
    let ss ← state.dword .esp 16
    some { state with cpu := { state.cpu with
      eip := eip, cs := cs, eflags := eflags, esp := esp, ss := ss } }

/-- `ret` to the address on top of the stack. -/
def ret (state : State) : Option State := do
  let eip ← state.dword .esp 0
  some { state with cpu := { state.cpu with eip := eip, esp := state.cpu.esp + 4 } }

/-- One instruction. -/
def step (instr : Instr) (state : State) : Option State :=
  match instr with
  | .mov dst src => some { state with cpu := state.cpu.set dst (state.cpu.get src) }
  | .load dst base disp =>
      (state.dword base disp).map fun value => { state with cpu := state.cpu.set dst value }
  | .loadAx base disp => (state.dword base disp).map fun value =>
      { state with cpu := state.cpu.set .eax (state.cpu.eax / 65536 * 65536 + value % 65536) }
  | .loadAt dst address =>
      (state.memory address).map fun value => { state with cpu := state.cpu.set dst value }
  | .storeAt address src => some { state with
      memory := Function.update state.memory address (some (state.cpu.get src)) }
  | .segment => some state
  | .or dst value => some { state with cpu := state.cpu.set dst (state.cpu.get dst ||| value) }
  | .add dst value => some { state with cpu := state.cpu.set dst (state.cpu.get dst + value) }
  | .push src => some (state.push (state.cpu.get src))
  | .pushAt base disp => (state.dword base disp).map fun value => state.push value
  | .pushImm value => some (state.push value)
  | .pushad => some (pushad state)
  | .popad => popad state
  | .call site => some (state.push site)
  | .ret site =>
      if state.dword .esp 0 = some site then
        some { state with cpu := { state.cpu with esp := state.cpu.esp + 4 } }
      else none
  | .iret => iret state

theorem step_load {state : State} {dst base : Reg} {disp value : Nat}
    (here : state.dword base disp = some value) :
    step (.load dst base disp) state = some { state with cpu := state.cpu.set dst value } := by
  rw [step, here, Option.map_some]

theorem step_loadAx {state : State} {base : Reg} {disp value : Nat}
    (here : state.dword base disp = some value) : step (.loadAx base disp) state = some { state with
      cpu := state.cpu.set .eax (state.cpu.eax / 65536 * 65536 + value % 65536) } := by
  rw [step, here, Option.map_some]

theorem step_pushAt {state : State} {base : Reg} {disp value : Nat}
    (here : state.dword base disp = some value) :
    step (.pushAt base disp) state = some (state.push value) := by
  rw [step, here, Option.map_some]

/-- `iret` to another privilege level. -/
theorem iret_outer {state : State} {eip cs eflags esp ss : Nat}
    (eipHere : state.dword .esp 0 = some eip) (csHere : state.dword .esp 4 = some cs)
    (eflagsHere : state.dword .esp 8 = some eflags) (espHere : state.dword .esp 12 = some esp)
    (ssHere : state.dword .esp 16 = some ss)
    (outer : Cpu.privilege cs ≠ Cpu.privilege state.cpu.cs) :
    iret state = some { state with cpu := { state.cpu with
      eip := eip, cs := cs, eflags := eflags, esp := esp, ss := ss } } := by
  simp only [iret, eipHere, csHere, eflagsHere, espHere, ssHere, Option.bind_eq_bind,
    Option.bind_some, if_neg outer]

/-- `iret` at the same privilege level, which keeps the stack. -/
theorem iret_inner {state : State} {eip cs eflags : Nat}
    (eipHere : state.dword .esp 0 = some eip) (csHere : state.dword .esp 4 = some cs)
    (eflagsHere : state.dword .esp 8 = some eflags)
    (inner : Cpu.privilege cs = Cpu.privilege state.cpu.cs) :
    iret state = some { state with cpu := { state.cpu with
      eip := eip, cs := cs, eflags := eflags, esp := state.cpu.esp + 12 } } := by
  simp only [iret, eipHere, csHere, eflagsHere, Option.bind_eq_bind, Option.bind_some,
    if_pos inner]

/-- Straight-line code. -/
def exec : List Instr → State → Option State
  | [], state => some state
  | instr :: instrs, state => (step instr state).bind (exec instrs)

/-- Entering the kernel mode: the state of the user mode is pushed on the kernel stack. -/
def interrupt (kernelStack kernelCode kernelData : Nat) (user : Cpu) (memory : Memory) : State :=
  let inner : State := ⟨{ user with esp := kernelStack, cs := kernelCode, ss := kernelData }, memory⟩
  ((((inner.push user.ss).push user.esp).push user.eflags).push user.cs).push user.eip

theorem exec_cons {instr : Instr} {instrs : List Instr} {state next : State}
    (run : step instr state = some next) : exec (instr :: instrs) state = exec instrs next := by
  rw [exec, run, Option.bind_some]

theorem exec_step {instr : Instr} {instrs : List Instr} {state next : State} {result : Option State}
    (run : step instr state = some next) (rest : exec instrs next = result) :
    exec (instr :: instrs) state = result :=
  (exec_cons run).trans rest

theorem exec_append (first second : List Instr) (state : State) :
    exec (first ++ second) state = (exec first state).bind (exec second) := by
  induction first generalizing state with
  | nil => rfl
  | cons instr first ih =>
      rw [List.cons_append, exec, exec]
      cases step instr state with
      | none => rfl
      | some next => exact ih next

/-- Push dwords one after the other. -/
def pushes (values : List Nat) (state : State) : State :=
  values.foldl (fun state value => state.push value) state

theorem pushes_esp (values : List Nat) : ∀ state : State,
    (pushes values state).cpu.esp = state.cpu.esp - 4 * values.length := by
  induction values with
  | nil => exact fun _ => rfl
  | cons value values ih =>
      intro state
      rw [pushes, List.foldl_cons, ← pushes, ih, State.push_esp, List.length_cons]
      omega

/-- Pushing leaves the memory outside of the dwords on the stack as it is. -/
theorem pushes_memory_of_outside (values : List Nat) : ∀ {state : State} {address : Nat},
    4 * values.length ≤ state.cpu.esp →
    address < state.cpu.esp - 4 * values.length ∨ state.cpu.esp ≤ address →
    (pushes values state).memory address = state.memory address := by
  induction values with
  | nil => exact fun _ _ => rfl
  | cons value values ih =>
      intro state address room outside
      rw [List.length_cons] at room outside
      have next := state.push_esp value
      rw [pushes, List.foldl_cons, ← pushes, ih (by omega) (by omega)]
      exact Function.update_of_ne (by omega) ..

/-- The dwords that were pushed are on the stack. -/
theorem pushes_memory (values : List Nat) : ∀ {state : State} {index : Nat}
    (inside : index < values.length), 4 * values.length ≤ state.cpu.esp →
    (pushes values state).memory (state.cpu.esp - 4 * (index + 1)) = some values[index] := by
  induction values with
  | nil => exact fun inside => absurd inside (Nat.not_lt_zero _)
  | cons value values ih =>
      intro state index inside room
      rw [List.length_cons] at room
      have next := state.push_esp value
      rw [pushes, List.foldl_cons, ← pushes]
      cases index with
      | zero =>
          rw [pushes_memory_of_outside values (by omega) (by omega)]
          exact Function.update_self ..
      | succ index =>
          have tail := @ih (state.push value) index (Nat.lt_of_succ_lt_succ inside) (by omega)
          rw [next, show state.cpu.esp - 4 - 4 * (index + 1) =
            state.cpu.esp - 4 * (index + 1 + 1) by omega] at tail
          exact tail

/-- The values lie on the stack, which started at `top`. -/
structure Pushed (top : Nat) (values : List Nat) (state : State) : Prop where
  esp : state.cpu.esp + 4 * values.length = top
  memory : ∀ (index : Nat) (inside : index < values.length),
    state.memory (top - 4 * (index + 1)) = some values[index]

namespace Pushed

variable {top : Nat} {values : List Nat} {state : State}

theorem push (pushed : Pushed top values state) (room : 4 ≤ state.cpu.esp) (value : Nat) :
    Pushed top (values ++ [value]) (state.push value) where
  esp := by
    have esp := pushed.esp
    rw [State.push_esp, List.length_append, List.length_singleton]
    omega
  memory := by
    intro index inside
    have esp := pushed.esp
    rw [List.length_append, List.length_singleton] at inside
    rw [State.push]
    dsimp only
    by_cases last : index = values.length
    · subst last
      rw [show top - 4 * (values.length + 1) = state.cpu.esp - 4 by omega, Function.update_self,
        List.getElem_concat_length rfl]
    · rw [Function.update_of_ne (by omega), pushed.memory index (by omega),
        List.getElem_append_left]

/-- The values are read from the top of the stack. -/
theorem dword (pushed : Pushed top values state) {index disp : Nat} (inside : index < values.length)
    (here : disp + 4 * (index + 1) = 4 * values.length) :
    state.dword .esp disp = some values[index] := by
  have esp := pushed.esp
  rw [State.dword, Cpu.get, ← pushed.memory index inside]
  congr 1
  omega

end Pushed

end X86
