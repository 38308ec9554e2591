import Peachos.Foundation.Ports

/-! # Machine code that accesses ports

A part of the 32-bit x86 with `in`, `out` and `rep insw`, the direction flag clear. The stack is
apart from the memory that words are stored to, and `ret` is taken once the procedure has popped
what it has pushed. `Simulates` says that code does what a program does; there is one rule for each
way to compose programs, and one for the instructions between two accesses.
-/

namespace PortMachine

open Ports

inductive Reg where
  | eax
  | ebx
  | ecx
  | edx
  | edi
  deriving DecidableEq, Repr

structure Cpu where
  eax : BitVec 32
  ebx : BitVec 32
  ecx : BitVec 32
  edx : BitVec 32
  edi : BitVec 32
  zf : Bool
  deriving DecidableEq, Repr

namespace Cpu

def get (cpu : Cpu) : Reg → BitVec 32
  | .eax => cpu.eax
  | .ebx => cpu.ebx
  | .ecx => cpu.ecx
  | .edx => cpu.edx
  | .edi => cpu.edi

def set (cpu : Cpu) (reg : Reg) (value : BitVec 32) : Cpu :=
  match reg with
  | .eax => { cpu with eax := value }
  | .ebx => { cpu with ebx := value }
  | .ecx => { cpu with ecx := value }
  | .edx => { cpu with edx := value }
  | .edi => { cpu with edi := value }

def al (cpu : Cpu) : BitVec 8 := cpu.eax.setWidth 8

def dx (cpu : Cpu) : BitVec 16 := cpu.edx.setWidth 16

/-- The other bytes of `eax` stay. -/
def setAl (cpu : Cpu) (value : BitVec 8) : Cpu :=
  { cpu with eax := cpu.eax.extractLsb' 8 24 ++ value }

def setDx (cpu : Cpu) (value : BitVec 16) : Cpu :=
  { cpu with edx := cpu.edx.extractLsb' 16 16 ++ value }

variable {cpu : Cpu}

@[simp] theorem setAl_al (value : BitVec 8) : (cpu.setAl value).al = value :=
  BitVec.setWidth_append_eq_right

@[simp] theorem setDx_dx (value : BitVec 16) : (cpu.setDx value).dx = value :=
  BitVec.setWidth_append_eq_right

end Cpu

inductive Instr where
  /-- `mov dst, src` -/
  | mov (dst src : Reg)
  /-- `mov dst, value` -/
  | movImm (dst : Reg) (value : BitVec 32)
  /-- `mov dx, value` -/
  | movDx (value : BitVec 16)
  /-- `mov al, value` -/
  | movAl (value : BitVec 8)
  /-- `shr dst, count` -/
  | shr (dst : Reg) (count : Nat)
  /-- `or dst, value` -/
  | or (dst : Reg) (value : BitVec 32)
  /-- `out dx, al` -/
  | out
  /-- `in al, dx` -/
  | inAl
  /-- `test al, mask` -/
  | testAl (mask : BitVec 8)
  /-- `jz` to the instruction with the given index -/
  | jz (target : Nat)
  | push (src : Reg)
  | pop (dst : Reg)
  | repInsw
  /-- `loop` to the instruction with the given index -/
  | loop (target : Nat)
  | ret
  deriving DecidableEq, Repr

structure State where
  cpu : Cpu
  /-- What the procedure has pushed. -/
  stack : List (BitVec 32) := []
  /-- The index of the next instruction. -/
  eip : Nat := 0
  line : Line

namespace State

/-- After an instruction that only changes registers. -/
def advance (state : State) (cpu : Cpu) : State :=
  { state with cpu := cpu, eip := state.eip + 1 }

end State

/-- What a step comes to: a state, the end of the procedure, a port without an answer, or no
instruction. -/
inductive Step where
  | next (state : State)
  | returned
  | waiting
  | stuck

/-- One instruction, or one turn of `rep insw`. -/
def step (code : List Instr) (state : State) : Step :=
  let cpu := state.cpu
  match code[state.eip]? with
  | none => .stuck
  | some (.mov dst src) => .next (state.advance (cpu.set dst (cpu.get src)))
  | some (.movImm dst value) => .next (state.advance (cpu.set dst value))
  | some (.movDx value) => .next (state.advance (cpu.setDx value))
  | some (.movAl value) => .next (state.advance (cpu.setAl value))
  | some (.shr dst count) =>
      let value := cpu.get dst >>> count
      .next (state.advance { cpu.set dst value with zf := value = 0 })
  | some (.or dst value) =>
      let value := cpu.get dst ||| value
      .next (state.advance { cpu.set dst value with zf := value = 0 })
  | some .out =>
      .next { state.advance cpu with line := state.line.record (.out cpu.dx cpu.al) }
  | some .inAl =>
      match state.line.answers with
      | [] => .waiting
      | answer :: answers => .next { state.advance (cpu.setAl (answer.setWidth 8)) with
          line := state.line.receive answers (.inByte cpu.dx (answer.setWidth 8)) }
  | some (.testAl mask) => .next (state.advance { cpu with zf := cpu.al &&& mask = 0 })
  | some (.jz target) =>
      .next { state.advance cpu with eip := if cpu.zf then target else state.eip + 1 }
  | some (.push src) => .next { state.advance cpu with stack := cpu.get src :: state.stack }
  | some (.pop dst) =>
      match state.stack with
      | [] => .stuck
      | value :: stack => .next { state.advance (cpu.set dst value) with stack := stack }
  | some .repInsw =>
      if cpu.ecx = 0 then .next (state.advance cpu)
      else
        match state.line.answers with
        | [] => .waiting
        | word :: answers => .next { state with
            cpu := { cpu with ecx := cpu.ecx - 1, edi := cpu.edi + 2 }
            line := (state.line.receive answers (.inWord cpu.dx word)).record
              (.store cpu.edi word) }
  | some (.loop target) =>
      let ecx := cpu.ecx - 1
      .next { state.advance { cpu with ecx := ecx } with
        eip := if ecx ≠ 0 then target else state.eip + 1 }
  | some .ret => if state.stack = [] then .returned else .stuck

/-- Run for a number of steps. -/
def run (code : List Instr) : (fuel : Nat) → State → Option Outcome
  | 0, _ => none
  | fuel + 1, state =>
      match step code state with
      | .next state => run code fuel state
      | .returned => some ⟨state.line.accesses, true⟩
      | .waiting => some ⟨state.line.accesses, false⟩
      | .stuck => none

/-- The run ends with the outcome, if it is given enough steps. -/
def Ends (code : List Instr) (state : State) (outcome : Outcome) : Prop :=
  ∃ enough, ∀ fuel ≥ enough, run code fuel state = some outcome

section Rules

variable {code : List Instr} {state next : State} {reached : Outcome} {α β : Type}

theorem Ends.step (one : step code state = .next next) (rest : Ends code next reached) :
    Ends code state reached := by
  obtain ⟨enough, rest⟩ := rest
  refine ⟨enough + 1, fun fuel more => ?_⟩
  obtain ⟨fuel, rfl⟩ := Nat.exists_eq_succ_of_ne_zero (Nat.ne_of_gt (Nat.lt_of_lt_of_le
    (Nat.succ_pos enough) more))
  rw [run, one]
  exact rest fuel (Nat.le_of_succ_le_succ more)

theorem Ends.returned (one : PortMachine.step code state = .returned) :
    Ends code state ⟨state.line.accesses, true⟩ := by
  refine ⟨1, fun fuel more => ?_⟩
  obtain ⟨fuel, rfl⟩ := Nat.exists_eq_succ_of_ne_zero (Nat.ne_of_gt more)
  rw [run, one]

theorem Ends.waiting (one : PortMachine.step code state = .waiting) :
    Ends code state ⟨state.line.accesses, false⟩ := by
  refine ⟨1, fun fuel more => ?_⟩
  obtain ⟨fuel, rfl⟩ := Nat.exists_eq_succ_of_ne_zero (Nat.ne_of_gt more)
  rw [run, one]

/-- A state has one outcome. -/
theorem Ends.unique {other : Outcome} (first : Ends code state reached)
    (second : Ends code state other) : reached = other := by
  obtain ⟨enough, first⟩ := first
  obtain ⟨enough', second⟩ := second
  have same := (first _ (Nat.le_max_left enough enough')).symm.trans
    (second _ (Nat.le_max_right enough enough'))
  exact Option.some.inj same

/-- The code makes the accesses that the program makes, and goes on where the program returns as
any outcome from a state with `post` has it. -/
def Simulates (code : List Instr) (state : State) (program : P α) (post : α → State → Prop) :
    Prop :=
  match program.run state.line with
  | .error accesses => Ends code state ⟨accesses, false⟩
  | .ok (value, line) => ∃ final, final.line = line ∧ post value final ∧
      ∀ {reached}, Ends code final reached → Ends code state reached

namespace Simulates

variable {program : P α} {post : α → State → Prop}

theorem pure {value : α} (holds : post value state) :
    Simulates code state (Pure.pure value) post :=
  ⟨state, rfl, holds, id⟩

/-- An instruction between two accesses. -/
theorem step (one : PortMachine.step code state = .next next) (silent : next.line = state.line)
    (rest : Simulates code next program post) : Simulates code state program post := by
  unfold Simulates at *
  rw [silent] at rest
  cases run : program.run state.line with
  | error accesses =>
      rw [run] at rest
      exact .step one rest
  | ok result =>
      rw [run] at rest
      obtain ⟨final, same, holds, rest⟩ := rest
      exact ⟨final, same, holds, fun ends => .step one (rest ends)⟩

theorem bind {rest : α → P β} {post' : β → State → Prop}
    (first : Simulates code state program post)
    (second : ∀ value final, post value final → Simulates code final (rest value) post') :
    Simulates code state (program >>= rest) post' := by
  unfold Simulates at *
  cases run : program.run state.line with
  | error accesses =>
      rw [run] at first
      rw [Exec.bind_of_error run]
      exact first
  | ok result =>
      obtain ⟨value, line⟩ := result
      rw [run] at first
      obtain ⟨final, same, holds, first⟩ := first
      have second := second value final holds
      rw [same] at second
      rw [Exec.bind_of_ok run]
      cases run' : (rest value).run line with
      | error accesses =>
          rw [run'] at second
          exact first second
      | ok result' =>
          rw [run'] at second
          obtain ⟨final', same', holds', second⟩ := second
          exact ⟨final', same', holds', fun ends => first (second ends)⟩

theorem congr {program' : P α} (same : ∀ line, program.run line = program'.run line)
    (simulates : Simulates code state program' post) : Simulates code state program post := by
  unfold Simulates at *
  rw [same]
  exact simulates

/-- Code that does what the program does, up to its `ret`, has the outcome of the program. -/
theorem ends (simulates : Simulates code state program fun _ final =>
    PortMachine.step code final = .returned) : Ends code state (outcome program state.line) := by
  unfold Simulates at simulates
  unfold outcome
  cases run : program.run state.line with
  | error accesses =>
      rw [run] at simulates
      exact simulates
  | ok result =>
      obtain ⟨value, line⟩ := result
      rw [run] at simulates
      obtain ⟨final, rfl, returned, rest⟩ := simulates
      exact rest (.returned returned)

section Accesses

variable {port : BitVec 16}

/-- `out dx, al` -/
theorem out (fetch : code[state.eip]? = some .out) {value : BitVec 8}
    (dx : state.cpu.dx = port) (al : state.cpu.al = value) {rest : Unit → P α}
    (after : Simulates code { state.advance state.cpu with
      line := state.line.record (.out port value) } (rest ()) post) :
    Simulates code state (outByte port value >>= rest) post := by
  have first : Simulates code state (outByte port value) fun _ final =>
      final = { state.advance state.cpu with line := state.line.record (.out port value) } := by
    refine ⟨_, rfl, rfl, fun ends => .step ?_ ends⟩
    rw [PortMachine.step, fetch, dx, al]
  refine first.bind fun _ final same => ?_
  rw [same]
  exact after

/-- `in al, dx`, which takes an answer. -/
theorem inAl (fetch : code[state.eip]? = some .inAl) (dx : state.cpu.dx = port)
    {rest : BitVec 8 → P α}
    (after : ∀ value line, line.answers.length < state.line.answers.length →
      Simulates code { state.advance (state.cpu.setAl value) with line := line } (rest value) post) :
    Simulates code state (inByte port >>= rest) post := by
  have first : Simulates code state (inByte port) fun value final => ∃ line : Line,
      line.answers.length < state.line.answers.length ∧
        final = { state.advance (state.cpu.setAl value) with line := line } := by
    obtain ⟨cpu, stack, eip, answers, accesses⟩ := state
    subst dx
    cases answers with
    | nil => exact .waiting (by rw [PortMachine.step, fetch])
    | cons answer answers =>
        refine ⟨_, rfl, ⟨_, Nat.lt_succ_self _, rfl⟩, fun ends => .step ?_ ends⟩
        rw [PortMachine.step, fetch]
        rfl
  refine first.bind ?_
  rintro value _ ⟨line, fewer, rfl⟩
  exact after value line fewer

/-- One turn of `rep insw`. -/
theorem insw (fetch : code[state.eip]? = some .repInsw) (dx : state.cpu.dx = port)
    (more : state.cpu.ecx ≠ 0) {rest : Unit → P α}
    (after : ∀ line, Simulates code { state with
      cpu := { state.cpu with ecx := state.cpu.ecx - 1, edi := state.cpu.edi + 2 }
      line := line } (rest ()) post) :
    Simulates code state
      (inWord port >>= fun word => storeWord state.cpu.edi word >>= rest) post := by
  have first : Simulates code state (inWord port >>= storeWord state.cpu.edi) fun _ final =>
      ∃ line, final = { state with
        cpu := { state.cpu with ecx := state.cpu.ecx - 1, edi := state.cpu.edi + 2 }
        line := line } := by
    obtain ⟨cpu, stack, eip, answers, accesses⟩ := state
    subst dx
    cases answers with
    | nil => exact .waiting (by rw [PortMachine.step, fetch]; exact if_neg more)
    | cons word answers =>
        refine ⟨_, rfl, ⟨_, rfl⟩, fun ends => .step ?_ ends⟩
        rw [PortMachine.step, fetch]
        exact if_neg more
  refine congr (fun line => (Exec.bind_assoc _ _ _ line).symm) (first.bind ?_)
  rintro _ _ ⟨line, rfl⟩
  exact after line

end Accesses

end Simulates

end Rules

end PortMachine
