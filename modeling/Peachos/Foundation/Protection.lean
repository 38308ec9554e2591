import Mathlib.Data.UInt
import Peachos.Foundation.X86

/-! # Descriptor tables of the x86

How the processor takes an interrupt in the protected mode: through a gate of the interrupt
descriptor table to a code segment of the global descriptor table, and, if the privilege level
changes, to the stack of the task state segment. Task gates, 16-bit gates, the local descriptor
table and the virtual 8086 mode are left out.
-/

namespace X86

/-- The 16-bit word at an address. -/
def word16 (memory : Nat → UInt8) (address : Nat) : Nat :=
  (memory address).toNat + 256 * (memory (address + 1)).toNat

/-- The 32-bit word at an address. -/
def word32 (memory : Nat → UInt8) (address : Nat) : Nat :=
  word16 memory address + 65536 * word16 memory (address + 2)

theorem word16_congr {first second : Nat → UInt8} {address address' : Nat}
    (same : ∀ offset < 2, first (address + offset) = second (address' + offset)) :
    word16 first address = word16 second address' := by
  have low : first address = second address' := same 0 (by decide)
  rw [word16, word16, low, same 1 (by decide)]

theorem word32_congr {first second : Nat → UInt8} {address address' : Nat}
    (same : ∀ offset < 4, first (address + offset) = second (address' + offset)) :
    word32 first address = word32 second address' := by
  have low := word16_congr fun offset inside => same offset (by omega)
  have high : word16 first (address + 2) = word16 second (address' + 2) :=
    word16_congr fun offset inside => by
      rw [Nat.add_assoc, Nat.add_assoc]
      exact same (2 + offset) (by omega)
  rw [word32, word32, low, high]

/-- A segment descriptor. -/
structure Segment where
  base : Nat
  limit : Nat
  access : UInt8
  deriving DecidableEq, Repr

namespace Segment

variable (segment : Segment)

def Present : Prop := segment.access &&& 0x80 ≠ 0

/-- The descriptor privilege level. -/
def dpl : Nat := segment.access.toNat / 32 % 4

def IsCode : Prop := segment.access &&& 0x18 = 0x18

def Conforming : Prop := segment.access &&& 0x1C = 0x1C

/-- A data segment that can be written and grows upwards. -/
def IsStack : Prop := segment.access &&& 0x1E = 0x12

/-- The descriptor of a task state segment that no task uses. -/
def IsAvailableTss : Prop := segment.access &&& 0x1F = 0x09

instance : Decidable segment.Present := inferInstanceAs (Decidable (_ ≠ _))

instance : Decidable segment.IsCode := inferInstanceAs (Decidable (_ = _))

instance : Decidable segment.Conforming := inferInstanceAs (Decidable (_ = _))

instance : Decidable segment.IsStack := inferInstanceAs (Decidable (_ = _))

instance : Decidable segment.IsAvailableTss := inferInstanceAs (Decidable (_ = _))

end Segment

/-- The segment descriptor at an address. -/
def segmentAt (memory : Nat → UInt8) (address : Nat) : Segment where
  base := word16 memory (address + 2) + 65536 * (memory (address + 4)).toNat +
    16777216 * (memory (address + 7)).toNat
  limit :=
    let limit := word16 memory address + 65536 * (memory (address + 6) &&& 0x0F).toNat
    if memory (address + 6) &&& 0x80 ≠ 0 then 4096 * limit + 4095 else limit
  access := memory (address + 5)

theorem segmentAt_congr {first second : Nat → UInt8} {address address' : Nat}
    (same : ∀ offset < 8, first (address + offset) = second (address' + offset)) :
    segmentAt first address = segmentAt second address' := by
  have low : word16 first address = word16 second address' :=
    word16_congr fun offset inside => same offset (by omega)
  have base : word16 first (address + 2) = word16 second (address' + 2) :=
    word16_congr fun offset inside => by
      rw [Nat.add_assoc, Nat.add_assoc]
      exact same (2 + offset) (by omega)
  rw [segmentAt, segmentAt, low, base, same 4 (by decide), same 5 (by decide),
    same 6 (by decide), same 7 (by decide)]

/-- A gate of the interrupt descriptor table. -/
structure Gate where
  offset : Nat
  selector : Nat
  attributes : UInt8
  deriving DecidableEq, Repr

namespace Gate

variable (gate : Gate)

def Present : Prop := gate.attributes &&& 0x80 ≠ 0

def dpl : Nat := gate.attributes.toNat / 32 % 4

/-- A 32-bit interrupt gate, which disables the interrupts, or a 32-bit trap gate. -/
def IsInterruptOrTrap : Prop := gate.attributes &&& 0x1E = 0x0E

def isTrap : Bool := gate.attributes &&& 0x01 ≠ 0

instance : Decidable gate.Present := inferInstanceAs (Decidable (_ ≠ _))

instance : Decidable gate.IsInterruptOrTrap := inferInstanceAs (Decidable (_ = _))

end Gate

/-- The gate at an address. -/
def gateAt (memory : Nat → UInt8) (address : Nat) : Gate where
  offset := word16 memory address + 65536 * word16 memory (address + 6)
  selector := word16 memory (address + 2)
  attributes := memory (address + 5)

theorem gateAt_congr {first second : Nat → UInt8} {address address' : Nat}
    (same : ∀ offset < 8, first (address + offset) = second (address' + offset)) :
    gateAt first address = gateAt second address' := by
  have low : word16 first address = word16 second address' :=
    word16_congr fun offset inside => same offset (by omega)
  have selector : word16 first (address + 2) = word16 second (address' + 2) :=
    word16_congr fun offset inside => by
      rw [Nat.add_assoc, Nat.add_assoc]
      exact same (2 + offset) (by omega)
  have high : word16 first (address + 6) = word16 second (address' + 6) :=
    word16_congr fun offset inside => by
      rw [Nat.add_assoc, Nat.add_assoc]
      exact same (6 + offset) (by omega)
  rw [gateAt, gateAt, low, selector, high, same 5 (by decide)]

/-- Where a table lies: its base and the offset of its last byte. -/
structure TableRegister where
  base : Nat
  limit : Nat
  deriving DecidableEq, Repr

/-- The tables of the processor, and the memory that they lie in. -/
structure Tables where
  memory : Nat → UInt8
  gdtr : TableRegister
  idtr : TableRegister
  tr : TableRegister

/-- What the processor continues with when it takes an interrupt. -/
structure Entry where
  cs : Nat
  eip : Nat
  /-- The new stack, `ss` and `esp`, if the privilege level changes. -/
  stack : Option (Nat × Nat)
  /-- The interrupts stay enabled. -/
  keepsInterrupts : Bool
  deriving DecidableEq, Repr

/-- The exceptions that the processor raises instead. -/
inductive Refused where
  | generalProtection
  | notPresent
  | invalidTss
  | stackFault
  deriving DecidableEq, Repr

namespace Tables

variable (tables : Tables)

/-- The descriptor of the global descriptor table that a selector stands for. -/
def descriptor (selector : Nat) : Option Segment :=
  if selector / 4 = 0 ∨ selector / 4 % 2 = 1 ∨ tables.gdtr.limit < selector / 8 * 8 + 7 then none
  else some (segmentAt tables.memory (tables.gdtr.base + selector / 8 * 8))

/-- The stack of the task state segment for a privilege level, with room for five dwords. -/
def innerStack (level : Nat) : Except Refused (Nat × Nat) :=
  if tables.tr.limit < 8 * level + 9 then .error .invalidTss
  else
    let esp := word32 tables.memory (tables.tr.base + (8 * level + 4))
    let ss := word16 tables.memory (tables.tr.base + (8 * level + 8))
    match tables.descriptor ss with
    | none => .error .invalidTss
    | some segment =>
        if ss % 4 ≠ level ∨ segment.dpl ≠ level ∨ ¬ segment.IsStack then .error .invalidTss
        else if ¬ segment.Present then .error .stackFault
        else if esp < 20 ∨ segment.limit + 1 < esp then .error .stackFault
        else .ok (ss, esp)

/-- Take an interrupt at a privilege level, by an instruction of the program or not. -/
def deliver (level : Nat) (software : Bool) (vector : Nat) : Except Refused Entry :=
  if tables.idtr.limit < 8 * vector + 7 then .error .generalProtection
  else
    let gate := gateAt tables.memory (tables.idtr.base + 8 * vector)
    if ¬ gate.IsInterruptOrTrap ∨ software ∧ gate.dpl < level then .error .generalProtection
    else if ¬ gate.Present then .error .notPresent
    else
      match tables.descriptor gate.selector with
      | none => .error .generalProtection
      | some code =>
          if ¬ code.IsCode ∨ level < code.dpl then .error .generalProtection
          else if ¬ code.Present then .error .notPresent
          else if code.Conforming ∨ code.dpl = level then
            if code.limit < gate.offset then .error .generalProtection
            else .ok ⟨gate.selector / 4 * 4 + level, gate.offset, none, gate.isTrap⟩
          else do
            let stack ← tables.innerStack code.dpl
            if code.limit < gate.offset then .error .generalProtection
            else .ok ⟨gate.selector / 4 * 4 + code.dpl, gate.offset, some stack, gate.isTrap⟩

/-- `lgdt` -/
def lgdt (register : TableRegister) : Tables := { tables with gdtr := register }

/-- `lidt` -/
def lidt (register : TableRegister) : Tables := { tables with idtr := register }

/-- `ltr`, which marks the descriptor as busy. -/
def ltr (selector : Nat) : Except Refused Tables :=
  match tables.descriptor selector with
  | none => .error .generalProtection
  | some segment =>
      if ¬ segment.IsAvailableTss then .error .generalProtection
      else if ¬ segment.Present then .error .notPresent
      else
        let access := tables.gdtr.base + selector / 8 * 8 + 5
        .ok { tables with
          memory := Function.update tables.memory access (tables.memory access ||| 0x02)
          tr := ⟨segment.base, segment.limit⟩ }

variable {tables}

theorem innerStack_ok {level : Nat} {segment : Segment}
    (inside : 8 * level + 9 ≤ tables.tr.limit)
    (stack : tables.descriptor (word16 tables.memory (tables.tr.base + (8 * level + 8))) =
      some segment)
    (requested : word16 tables.memory (tables.tr.base + (8 * level + 8)) % 4 = level)
    (privileged : segment.dpl = level) (isStack : segment.IsStack) (present : segment.Present)
    (room : 20 ≤ word32 tables.memory (tables.tr.base + (8 * level + 4)))
    (limited : word32 tables.memory (tables.tr.base + (8 * level + 4)) ≤ segment.limit + 1) :
    tables.innerStack level = .ok (word16 tables.memory (tables.tr.base + (8 * level + 8)),
      word32 tables.memory (tables.tr.base + (8 * level + 4))) := by
  unfold innerStack
  rw [if_neg (not_lt.mpr inside)]
  dsimp only
  rw [stack]
  dsimp only
  rw [if_neg (by simp only [requested, privileged, isStack, ne_eq, not_true_eq_false, or_self,
      not_false_eq_true]),
    if_neg (not_not.mpr present), if_neg (by omega)]

/-- **From an outer level.** The interrupt is taken, on the stack of the task state segment. -/
theorem deliver_outer {level : Nat} {software : Bool} {vector : Nat} {code : Segment}
    {stack : Nat × Nat} {gate : Gate} (inside : 8 * vector + 7 ≤ tables.idtr.limit)
    (here : gateAt tables.memory (tables.idtr.base + 8 * vector) = gate)
    (kind : gate.IsInterruptOrTrap) (open' : level ≤ gate.dpl) (present : gate.Present)
    (target : tables.descriptor gate.selector = some code) (isCode : code.IsCode)
    (codePresent : code.Present) (nonconforming : ¬ code.Conforming) (inner : code.dpl < level)
    (reachable : gate.offset ≤ code.limit) (found : tables.innerStack code.dpl = .ok stack) :
    tables.deliver level software vector =
      .ok ⟨gate.selector / 4 * 4 + code.dpl, gate.offset, some stack, gate.isTrap⟩ := by
  subst here
  have allowed : ¬ (¬ (gateAt tables.memory (tables.idtr.base + 8 * vector)).IsInterruptOrTrap ∨
      software ∧ (gateAt tables.memory (tables.idtr.base + 8 * vector)).dpl < level) := by
    rintro (other | ⟨_, closed⟩)
    · exact other kind
    · omega
  unfold deliver
  rw [if_neg (not_lt.mpr inside)]
  dsimp only
  rw [if_neg allowed, if_neg (not_not.mpr present), target]
  dsimp only
  rw [if_neg (not_or.mpr ⟨not_not.mpr isCode, not_lt.mpr inner.le⟩),
    if_neg (not_not.mpr codePresent), if_neg (not_or.mpr ⟨nonconforming, inner.ne⟩), found]
  exact if_neg (not_lt.mpr reachable)

/-- **At the same level.** The interrupt is taken on the stack in use. -/
theorem deliver_same {level : Nat} {software : Bool} {vector : Nat} {code : Segment} {gate : Gate}
    (inside : 8 * vector + 7 ≤ tables.idtr.limit)
    (here : gateAt tables.memory (tables.idtr.base + 8 * vector) = gate)
    (kind : gate.IsInterruptOrTrap) (open' : level ≤ gate.dpl) (present : gate.Present)
    (target : tables.descriptor gate.selector = some code) (isCode : code.IsCode)
    (codePresent : code.Present) (same : code.dpl = level)
    (reachable : gate.offset ≤ code.limit) :
    tables.deliver level software vector =
      .ok ⟨gate.selector / 4 * 4 + level, gate.offset, none, gate.isTrap⟩ := by
  subst here
  have allowed : ¬ (¬ (gateAt tables.memory (tables.idtr.base + 8 * vector)).IsInterruptOrTrap ∨
      software ∧ (gateAt tables.memory (tables.idtr.base + 8 * vector)).dpl < level) := by
    rintro (other | ⟨_, closed⟩)
    · exact other kind
    · omega
  unfold deliver
  rw [if_neg (not_lt.mpr inside)]
  dsimp only
  rw [if_neg allowed, if_neg (not_not.mpr present), target]
  dsimp only
  rw [if_neg (not_or.mpr ⟨not_not.mpr isCode, not_lt.mpr same.le⟩),
    if_neg (not_not.mpr codePresent), if_pos (.inr same)]
  exact if_neg (not_lt.mpr reachable)

theorem ltr_ok {selector : Nat} {segment : Segment}
    (here : tables.descriptor selector = some segment) (available : segment.IsAvailableTss)
    (present : segment.Present) :
    tables.ltr selector = .ok { tables with
      memory := Function.update tables.memory (tables.gdtr.base + selector / 8 * 8 + 5)
        (tables.memory (tables.gdtr.base + selector / 8 * 8 + 5) ||| 0x02)
      tr := ⟨segment.base, segment.limit⟩ } := by
  unfold ltr
  rw [here]
  dsimp only
  rw [if_neg (not_not.mpr available), if_neg (not_not.mpr present)]

end Tables

namespace Entry

/-- The state of the processor in the handler. -/
def state (entry : Entry) (cpu : Cpu) (memory : Memory) : State :=
  match entry.stack with
  | some (ss, esp) => interrupt esp entry.cs ss cpu memory
  | none => ((State.push cpu.eflags ⟨{ cpu with cs := entry.cs }, memory⟩).push cpu.cs).push cpu.eip

end Entry

end X86
