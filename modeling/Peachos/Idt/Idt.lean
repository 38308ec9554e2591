import Peachos.Foundation.Protection
import Peachos.Task.Interrupts

/-! # The interrupt descriptor table

The tables of `idt.c`: the gates, the callbacks of the interrupts and the commands of `int 0x80`.
`idt_init` makes a gate for every vector and registers the callbacks (`idtInit_run`), which
`interrupt_handler` then finds (`interruptHandler_eq`). The addresses that the linker chooses are
parameters.
-/

namespace Peachos

open CInt X86

abbrev peachosTotalInterrupts : Nat := 512

/-- The size of `struct idt_desc`. -/
abbrev sizeofIdtDesc : Nat := 8

/-- The addresses of the code and the tables of the kernel. -/
structure Symbols where
  idtDescriptors : UInt32
  gdtReal : UInt32
  tss : UInt32
  interruptPointerTable : Nat → UInt32
  idtZero : UInt32
  isr80hWrapper : UInt32
  idtHandleException : UInt32
  idtClock : UInt32

/-- The variables of `idt.c`, and the register of the processor. The table of the gates is given
by the bytes at the offsets from its start; a callback or a command is the address of a function,
or null. -/
structure IdtState where
  idtDescriptors : Nat → UInt8
  idtrDescriptor : TableRegister
  interruptCallbacks : List UInt32
  isr80hCommands : List UInt32
  idtr : TableRegister

/-- A program over the tables of `idt.c`. -/
abbrev IdtM := Exec Fault IdtState

/-- Write a byte of a gate. -/
def putGateByte (offset : Nat) (value : UInt8) : IdtM Unit := Exec.update fun state =>
  { state with idtDescriptors := Function.update state.idtDescriptors offset value }

/-- Write a 16-bit field of a gate. -/
def putGateWord (offset : Nat) (value : UInt16) : IdtM Unit := do
  putGateByte offset value.toUInt8
  putGateByte (offset + 1) (value >>> 8).toUInt8

def idtSet (interruptNo : Int) (address : UInt32) : IdtM Unit :=
  if interruptNo < 0 ∨ interruptNo ≥ peachosTotalInterrupts then
    Exec.fault (.bufferIndex interruptNo)
  else do
    let desc := sizeofIdtDesc * interruptNo.toNat
    putGateWord desc (address &&& 0x0000ffff).toUInt16
    putGateWord (desc + 2) 0x08
    putGateByte (desc + 4) 0x00
    putGateByte (desc + 5) 0xEE
    putGateWord (desc + 6) (address >>> 16).toUInt16

def idtRegisterInterruptCallback (interrupt : Int) (interruptCallback : UInt32) : IdtM Int :=
  if interrupt < 0 ∨ interrupt ≥ peachosTotalInterrupts then pure (-einvagr)
  else do
    Exec.update fun state => { state with
      interruptCallbacks := state.interruptCallbacks.set interrupt.toNat interruptCallback }
    pure 0

/-- The loop of `idt_init` over the gates, from `i` on. -/
def idtSetLoop (symbols : Symbols) : (count i : Nat) → IdtM Unit
  | 0, _ => pure ()
  | count + 1, i => do
      idtSet i (symbols.interruptPointerTable i)
      idtSetLoop symbols count (i + 1)

/-- The loop of `idt_init` over the exceptions, from `i` on. -/
def idtRegisterLoop (symbols : Symbols) : (count i : Nat) → IdtM Unit
  | 0, _ => pure ()
  | count + 1, i => do
      let _ ← idtRegisterInterruptCallback i symbols.idtHandleException
      idtRegisterLoop symbols count (i + 1)

def idtLoad : IdtM Unit := Exec.update fun state => { state with idtr := state.idtrDescriptor }

def idtInit (symbols : Symbols) : IdtM Unit := do
  Exec.update fun state => { state with
    idtDescriptors := fun offset =>
      if offset < sizeofIdtDesc * peachosTotalInterrupts then 0 else state.idtDescriptors offset }
  Exec.update fun state => { state with idtrDescriptor :=
    ⟨symbols.idtDescriptors.toNat, sizeofIdtDesc * peachosTotalInterrupts - 1⟩ }
  idtSetLoop symbols peachosTotalInterrupts 0
  idtSet 0 symbols.idtZero
  idtSet 0x80 symbols.isr80hWrapper
  idtRegisterLoop symbols 0x20 0
  let _ ← idtRegisterInterruptCallback 0x20 symbols.idtClock
  idtLoad

def isr80hRegisterCommand (commandId : Int) (command : UInt32) : IdtM Unit :=
  if commandId < 0 ∨ commandId ≥ peachosMaxIsr80hCommands then
    Exec.fault (.panic "The command is out of bounds\n")
  else do
    let registered ← Exec.demand (.bufferIndex commandId) fun state =>
      state.isr80hCommands[commandId.toNat]?
    if registered ≠ 0 then
      Exec.fault (.panic "Your attempting to overwrite an existing command\n")
    else Exec.update fun state => { state with
      isr80hCommands := state.isr80hCommands.set commandId.toNat command }

/-- The handler that the gate of a vector leads to. -/
def Symbols.handler (symbols : Symbols) (vector : Nat) : UInt32 :=
  if vector = 0 then symbols.idtZero
  else if vector = 0x80 then symbols.isr80hWrapper
  else symbols.interruptPointerTable vector

/-- The callback of an interrupt after `idt_init`. -/
def Symbols.callback (symbols : Symbols) (interrupt : Nat) (before : UInt32) : UInt32 :=
  if interrupt < 0x20 then symbols.idtHandleException
  else if interrupt = 0x20 then symbols.idtClock
  else before

/-- A gate to a handler of the kernel that every program may use. -/
def kernelGate (address : UInt32) : Gate := ⟨address.toNat, 0x08, 0xEE⟩

section Gates

variable {state : IdtState}

/-- The bytes of the gates after one at `desc` is written, with the halves of its address. -/
def putGate (bytes : Nat → UInt8) (desc : Nat) (low high : UInt16) : Nat → UInt8 :=
  Function.update (Function.update (Function.update (Function.update (Function.update
    (Function.update (Function.update (Function.update bytes desc low.toUInt8)
      (desc + 1) (low >>> 8).toUInt8) (desc + 2) 0x08) (desc + 2 + 1) 0x00) (desc + 4) 0x00)
      (desc + 5) 0xEE) (desc + 6) high.toUInt8) (desc + 6 + 1) (high >>> 8).toUInt8

def IdtState.setGate (state : IdtState) (vector : Nat) (address : UInt32) : IdtState :=
  let desc := sizeofIdtDesc * vector
  let low := (address &&& 0x0000ffff).toUInt16
  { state with idtDescriptors := putGate state.idtDescriptors desc low (address >>> 16).toUInt16 }

theorem idtSet_run {vector : Nat} (inside : vector < peachosTotalInterrupts) (address : UInt32) :
    (idtSet vector address).run state = .ok ((), state.setGate vector address) := by
  have accepted : ¬ ((vector : Int) < 0 ∨ (vector : Int) ≥ peachosTotalInterrupts) := by omega
  rw [idtSet, if_neg accepted, Int.toNat_natCast]
  rfl

/-- The two bytes of a 16-bit word. -/
theorem toNat_bytes (word : UInt16) :
    word.toUInt8.toNat + 256 * (word >>> 8).toUInt8.toNat = word.toNat := by
  have bound := word.toNat_lt
  have shifted : (word >>> 8).toNat = word.toNat / 2 ^ 8 := by
    rw [UInt16.toNat_shiftRight, Nat.shiftRight_eq_div_pow]
    rfl
  rw [UInt16.toNat_toUInt8, UInt16.toNat_toUInt8, shifted]
  omega

/-- The two halves of a 32-bit word. -/
theorem toNat_halves (word : UInt32) :
    (word &&& 0x0000ffff).toUInt16.toNat + 65536 * (word >>> 16).toUInt16.toNat = word.toNat := by
  have bound := word.toNat_lt
  have low : (word &&& 0x0000ffff).toNat = word.toNat % 2 ^ 16 := by
    rw [UInt32.toNat_and]
    exact Nat.and_two_pow_sub_one_eq_mod word.toNat 16
  have high : (word >>> 16).toNat = word.toNat / 2 ^ 16 := by
    rw [UInt32.toNat_shiftRight, Nat.shiftRight_eq_div_pow]
    rfl
  rw [UInt32.toNat_toUInt16, UInt32.toNat_toUInt16, low, high]
  omega

theorem putGate_other (bytes : Nat → UInt8) {desc offset : Nat} (low high : UInt16)
    (outside : offset < desc ∨ desc + sizeofIdtDesc ≤ offset) :
    putGate bytes desc low high offset = bytes offset := by
  have apart : ∀ inner < sizeofIdtDesc, offset ≠ desc + inner := by
    intro inner inside
    omega
  unfold putGate
  rw [Function.update_of_ne (apart 7 (by decide)), Function.update_of_ne (apart 6 (by decide)),
    Function.update_of_ne (apart 5 (by decide)), Function.update_of_ne (apart 4 (by decide)),
    Function.update_of_ne (apart 3 (by decide)), Function.update_of_ne (apart 2 (by decide)),
    Function.update_of_ne (apart 1 (by decide)),
    Function.update_of_ne (show offset ≠ desc from apart 0 (by decide))]

/-- The eight bytes of the gate. -/
theorem putGate_bytes (bytes : Nat → UInt8) (desc : Nat) (low high : UInt16) :
    let final := putGate bytes desc low high
    (final desc = low.toUInt8 ∧ final (desc + 1) = (low >>> 8).toUInt8) ∧
      (final (desc + 2) = 0x08 ∧ final (desc + 2 + 1) = 0x00) ∧ final (desc + 5) = 0xEE ∧
      final (desc + 6) = high.toUInt8 ∧ final (desc + 6 + 1) = (high >>> 8).toUInt8 := by
  unfold putGate
  refine ⟨⟨?_, ?_⟩, ⟨?_, ?_⟩, ?_, ?_, ?_⟩
  all_goals
    repeat rw [Function.update_of_ne (by omega)]
    exact Function.update_self ..

theorem word16_bytes {memory : Nat → UInt8} {start : Nat} {word : UInt16}
    (low : memory start = word.toUInt8) (high : memory (start + 1) = (word >>> 8).toUInt8) :
    word16 memory start = word.toNat := by
  rw [word16, low, high, toNat_bytes]

/-- The processor reads the gate that was written. -/
theorem gateAt_putGate (bytes : Nat → UInt8) (desc : Nat) (address : UInt32) :
    gateAt (putGate bytes desc (address &&& 0x0000ffff).toUInt16 (address >>> 16).toUInt16) desc =
      kernelGate address := by
  obtain ⟨⟨low₀, low₁⟩, ⟨selector₀, selector₁⟩, attributes, high₀, high₁⟩ :=
    putGate_bytes bytes desc (address &&& 0x0000ffff).toUInt16 (address >>> 16).toUInt16
  have selector := @word16_bytes _ _ 0x08 selector₀ selector₁
  rw [gateAt, word16_bytes low₀ low₁, selector, word16_bytes high₀ high₁, attributes,
    toNat_halves]
  rfl

theorem IdtState.setGate_of_ne (state : IdtState) {vector other : Nat} (address : UInt32)
    (different : other ≠ vector) :
    gateAt (state.setGate vector address).idtDescriptors (sizeofIdtDesc * other) =
      gateAt state.idtDescriptors (sizeofIdtDesc * other) := by
  unfold setGate
  refine gateAt_congr fun offset inside => putGate_other _ _ _ ?_
  unfold sizeofIdtDesc
  rcases Nat.lt_or_gt_of_ne different with before | after
  · omega
  · omega

/-- Gates that lead to the given handlers, up to a vector. -/
def IdtState.HasGates (state : IdtState) (handler : Nat → UInt32) (count : Nat) : Prop :=
  ∀ vector < count, gateAt state.idtDescriptors (sizeofIdtDesc * vector) =
    kernelGate (handler vector)

/-- Only the gates have changed, and nothing after them. -/
structure GatesOnly (before after : IdtState) : Prop where
  others : after = { before with idtDescriptors := after.idtDescriptors }
  outside : ∀ offset, sizeofIdtDesc * peachosTotalInterrupts ≤ offset →
    after.idtDescriptors offset = before.idtDescriptors offset

theorem GatesOnly.trans {before middle after : IdtState} (first : GatesOnly before middle)
    (second : GatesOnly middle after) : GatesOnly before after where
  others := by
    rw [second.others, first.others]
  outside := fun offset past => (second.outside offset past).trans (first.outside offset past)

theorem IdtState.gatesOnly_setGate (state : IdtState) {vector : Nat}
    (inside : vector < peachosTotalInterrupts) (address : UInt32) :
    GatesOnly state (state.setGate vector address) where
  others := rfl
  outside := fun offset past => putGate_other _ _ _ (.inr (by
    unfold sizeofIdtDesc peachosTotalInterrupts at *
    omega))

/-- The loop over the gates. -/
theorem idtSetLoop_run (symbols : Symbols) : ∀ (count i : Nat) (state : IdtState),
    i + count ≤ peachosTotalInterrupts → state.HasGates symbols.interruptPointerTable i →
    ∃ final, (idtSetLoop symbols count i).run state = .ok ((), final) ∧
      final.HasGates symbols.interruptPointerTable (i + count) ∧ GatesOnly state final := by
  intro count
  induction count with
  | zero => exact fun i state _ gates => ⟨state, rfl, gates, rfl, fun _ _ => rfl⟩
  | succ count ih =>
      intro i state inside gates
      have gates' : (state.setGate i (symbols.interruptPointerTable i)).HasGates
          symbols.interruptPointerTable (i + 1) := by
        intro vector below
        by_cases last : vector = i
        · rw [last]
          exact gateAt_putGate ..
        · rw [state.setGate_of_ne _ last]
          exact gates vector (by omega)
      obtain ⟨final, run, all, kept⟩ := ih (i + 1) _ (by omega) gates'
      refine ⟨final, ?_, ?_, (state.gatesOnly_setGate (by omega) _).trans kept⟩
      · rw [idtSetLoop, Exec.bind_of_ok (idtSet_run (by omega) _), run]
      · rwa [Nat.add_assoc, Nat.add_comm 1] at all

end Gates

section Callbacks

variable {state : IdtState}

theorem idtRegisterInterruptCallback_run {interrupt : Nat}
    (inside : interrupt < peachosTotalInterrupts) (callback : UInt32) :
    (idtRegisterInterruptCallback interrupt callback).run state = .ok (0, { state with
      interruptCallbacks := state.interruptCallbacks.set interrupt callback }) := by
  have accepted : ¬ ((interrupt : Int) < 0 ∨ (interrupt : Int) ≥ peachosTotalInterrupts) := by
    omega
  rw [idtRegisterInterruptCallback, if_neg accepted]
  rfl

/-- The loop over the exceptions. -/
theorem idtRegisterLoop_run (symbols : Symbols) : ∀ (count i : Nat) (state : IdtState),
    i + count ≤ peachosTotalInterrupts →
    ∃ callbacks, (idtRegisterLoop symbols count i).run state =
        .ok ((), { state with interruptCallbacks := callbacks }) ∧
      callbacks.length = state.interruptCallbacks.length ∧
      ∀ interrupt < state.interruptCallbacks.length, callbacks[interrupt]? =
        if i ≤ interrupt ∧ interrupt < i + count then some symbols.idtHandleException
        else state.interruptCallbacks[interrupt]? := by
  intro count
  induction count with
  | zero =>
      intro i state _
      exact ⟨state.interruptCallbacks, rfl, rfl, fun interrupt _ => (if_neg (by omega)).symm⟩
  | succ count ih =>
      intro i state inside
      obtain ⟨callbacks, run, length, found⟩ := ih (i + 1) { state with
        interruptCallbacks := state.interruptCallbacks.set i symbols.idtHandleException } (by omega)
      rw [List.length_set] at length found
      refine ⟨callbacks, ?_, length, fun interrupt below => ?_⟩
      · rw [idtRegisterLoop, Exec.bind_of_ok (idtRegisterInterruptCallback_run (by omega) _), run]
      · rw [found interrupt below]
        by_cases first : interrupt = i
        · rw [if_neg (by omega), if_pos (by omega), first, List.getElem?_set_self (first ▸ below)]
        · rw [List.getElem?_set_ne (Ne.symm first)]
          exact if_congr (by omega) rfl rfl

end Callbacks

/-- The tables after `idt_init`. -/
structure IdtReady (symbols : Symbols) (before after : IdtState) : Prop where
  gates : after.HasGates symbols.handler peachosTotalInterrupts
  outside : ∀ offset, sizeofIdtDesc * peachosTotalInterrupts ≤ offset →
    after.idtDescriptors offset = before.idtDescriptors offset
  idtr : after.idtr = ⟨symbols.idtDescriptors.toNat, 4095⟩
  length : after.interruptCallbacks.length = before.interruptCallbacks.length
  callbacks : ∀ (interrupt : Nat) (inside : interrupt < before.interruptCallbacks.length),
    after.interruptCallbacks[interrupt]? =
      some (symbols.callback interrupt before.interruptCallbacks[interrupt])
  commands : after.isr80hCommands = before.isr80hCommands

/-- The gates of the table, then the two that are replaced. -/
theorem IdtState.HasGates.replace {symbols : Symbols} {state : IdtState}
    (gates : state.HasGates symbols.interruptPointerTable peachosTotalInterrupts) :
    ((state.setGate 0 symbols.idtZero).setGate 0x80 symbols.isr80hWrapper).HasGates
      symbols.handler peachosTotalInterrupts := by
  intro vector inside
  unfold Symbols.handler
  by_cases call : vector = 0x80
  · rw [if_neg (by omega), if_pos call, call]
    exact gateAt_putGate ..
  rw [(state.setGate 0 _).setGate_of_ne _ call, if_neg call]
  by_cases zero : vector = 0
  · rw [if_pos zero, zero]
    exact gateAt_putGate ..
  · rw [if_neg zero, state.setGate_of_ne _ zero]
    exact gates vector inside

/-- The table is cleared, and its place is noted. -/
def IdtState.cleared (symbols : Symbols) (state : IdtState) : IdtState :=
  { state with
    idtDescriptors := fun offset =>
      if offset < sizeofIdtDesc * peachosTotalInterrupts then 0 else state.idtDescriptors offset
    idtrDescriptor := ⟨symbols.idtDescriptors.toNat, sizeofIdtDesc * peachosTotalInterrupts - 1⟩ }

/-- **`idt_init`** makes a gate for every vector and registers the callbacks. -/
theorem idtInit_run (symbols : Symbols) (before : IdtState) :
    ∃ after, (idtInit symbols).run before = .ok ((), after) ∧ IdtReady symbols before after := by
  obtain ⟨gated, run₁, gates, kept⟩ := idtSetLoop_run symbols peachosTotalInterrupts 0
    (before.cleared symbols) (by decide) fun vector below => absurd below (Nat.not_lt_zero _)
  rw [Nat.zero_add] at gates
  obtain ⟨replaced, replace⟩ : ∃ replaced, replaced =
    (gated.setGate 0 symbols.idtZero).setGate 0x80 symbols.isr80hWrapper := ⟨_, rfl⟩
  have zero : (idtSet 0 symbols.idtZero).run gated = .ok ((), gated.setGate 0 symbols.idtZero) :=
    idtSet_run (show 0 < peachosTotalInterrupts by decide) _
  have call : (idtSet 0x80 symbols.isr80hWrapper).run (gated.setGate 0 symbols.idtZero) =
      .ok ((), replaced) := by
    rw [replace]
    exact idtSet_run (show 0x80 < peachosTotalInterrupts by decide) _
  have only : GatesOnly (before.cleared symbols) replaced := by
    rw [replace]
    exact (kept.trans (gated.gatesOnly_setGate (by decide) _)).trans
      ((gated.setGate 0 _).gatesOnly_setGate (by decide) _)
  have handlers : replaced.HasGates symbols.handler peachosTotalInterrupts := by
    rw [replace]
    exact gates.replace
  have sameCallbacks : replaced.interruptCallbacks = before.interruptCallbacks := by
    rw [only.others]
    rfl
  obtain ⟨callbacks, run₂, length, found⟩ := idtRegisterLoop_run symbols 0x20 0 replaced (by decide)
  rw [sameCallbacks] at length found
  have clock : (idtRegisterInterruptCallback 0x20 symbols.idtClock).run
      { replaced with interruptCallbacks := callbacks } = .ok (0, { replaced with
        interruptCallbacks := callbacks.set 0x20 symbols.idtClock }) :=
    idtRegisterInterruptCallback_run (show 0x20 < peachosTotalInterrupts by decide) _
  refine ⟨{ replaced with
    interruptCallbacks := callbacks.set 0x20 symbols.idtClock
    idtr := replaced.idtrDescriptor }, ?_, ?_⟩
  · rw [idtInit, Exec.bind_of_ok (Exec.run_update ..),
      @Exec.bind_of_ok _ _ _ _ _ _ _ (before.cleared symbols) () rfl, Exec.bind_of_ok run₁,
      Exec.bind_of_ok zero, Exec.bind_of_ok call, Exec.bind_of_ok run₂, Exec.bind_of_ok clock]
    rfl
  · refine ⟨handlers, fun offset past => ?_, ?_, ?_, fun interrupt inside => ?_, ?_⟩
    · rw [only.outside offset past]
      exact if_neg (not_lt.mpr past)
    · rw [only.others]
      rfl
    · rw [List.length_set, length]
    · rw [Symbols.callback]
      by_cases clock : interrupt = 0x20
      · rw [if_neg (by omega), if_pos clock, clock, List.getElem?_set_self (by omega)]
      · rw [List.getElem?_set_ne (Ne.symm clock), found interrupt inside, if_neg clock]
        by_cases exception : interrupt < 0x20
        · rw [if_pos (by omega), if_pos exception]
        · rw [if_neg (by omega), if_neg exception, List.getElem?_eq_getElem inside]
    · rw [only.others]
      rfl

end Peachos
