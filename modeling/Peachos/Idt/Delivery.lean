import Peachos.Gdt.Gdt
import Peachos.Idt.Idt
import Peachos.Task.TaskReturn

/-! # Entering the kernel

`kernel_main` builds the segment descriptors, the gates and the task state segment, and loads them
into the processor (`kernelMainTables`). With these tables every interrupt of a program, also one
by an instruction of its own, enters the kernel at the handler of its vector, with the segments and
on the stack that the model of the handlers starts from (`kernelMainTables_deliver`).
-/

namespace Peachos

open X86

/-- The size of `struct tss`. -/
abbrev sizeofTss : Nat := 108

/-- `PEACHOS_TOTAL_GDT_SEGMENTS` -/
abbrev peachosTotalGdtSegments : Nat := 6

abbrev sizeofGdtReal : Nat := sizeofGdt * peachosTotalGdtSegments

abbrev sizeofIdtDescriptors : Nat := sizeofIdtDesc * peachosTotalInterrupts

/-- `gdt_structured` -/
def kernelSegments (symbols : Symbols) : List GdtStructured :=
  [⟨0x00, 0x00, 0x00⟩,
    ⟨0x00, 0xffffffff, 0x9a⟩,
    ⟨0x00, 0xffffffff, 0x92⟩,
    ⟨0x00, 0xffffffff, 0xf8⟩,
    ⟨0x00, 0xffffffff, 0xf2⟩,
    ⟨symbols.tss, 108, 0xE9⟩]

/-- The code and the data segment of the kernel, as the processor reads them. -/
def kernelCode : Segment := ⟨0, 4294967295, 0x9a⟩

def kernelData : Segment := ⟨0, 4294967295, 0x92⟩

/-- The bytes of `tss`, by their offsets: zeros, then `esp0` and `ss0`. -/
def tssBytes (offset : Nat) : UInt8 :=
  if offset = 6 then 0x60 else if offset = 8 then 0x10 else 0x00

/-- Memory with an array at an address. -/
def overlay (memory : Nat → UInt8) (start size : Nat) (bytes : Nat → UInt8) (address : Nat) :
    UInt8 :=
  if start ≤ address ∧ address < start + size then bytes (address - start) else memory address

/-- The parts of `kernel_main` that set up the tables of the processor, with `gdt_load` and
`tss_load`. -/
def kernelMainTables (symbols : Symbols) (idt : IdtState) (tables : Tables) : Option Tables := do
  let (_, gdt) ← ((gdtStructuredToGdt (kernelSegments symbols)).run
    { bytes := fun _ => 0 }).toOption
  let gdtReal := symbols.gdtReal.toNat
  let tables := Tables.lgdt
    { tables with memory := overlay tables.memory gdtReal sizeofGdtReal gdt.bytes }
    ⟨gdtReal, sizeofGdtReal⟩
  let (_, idt) ← ((idtInit symbols).run idt).toOption
  let descriptors := symbols.idtDescriptors.toNat
  let tables := Tables.lidt
    { tables with
      memory := overlay tables.memory descriptors sizeofIdtDescriptors idt.idtDescriptors }
    idt.idtr
  let tables := { tables with
    memory := overlay tables.memory symbols.tss.toNat sizeofTss tssBytes }
  (tables.ltr 0x28).toOption

/-- The linker places the three arrays apart. -/
structure Symbols.Placed (symbols : Symbols) : Prop where
  gdtIdt : symbols.gdtReal.toNat + sizeofGdtReal ≤ symbols.idtDescriptors.toNat ∨
    symbols.idtDescriptors.toNat + sizeofIdtDescriptors ≤ symbols.gdtReal.toNat
  gdtTss : symbols.gdtReal.toNat + sizeofGdtReal ≤ symbols.tss.toNat ∨
    symbols.tss.toNat + sizeofTss ≤ symbols.gdtReal.toNat
  idtTss : symbols.idtDescriptors.toNat + sizeofIdtDescriptors ≤ symbols.tss.toNat ∨
    symbols.tss.toNat + sizeofTss ≤ symbols.idtDescriptors.toNat

section Overlay

variable {memory bytes : Nat → UInt8} {start size : Nat}

theorem overlay_inside {offset : Nat} (inside : offset < size) :
    overlay memory start size bytes (start + offset) = bytes offset := by
  rw [overlay, if_pos ⟨Nat.le_add_right _ _, Nat.add_lt_add_left inside _⟩, Nat.add_sub_cancel_left]

theorem overlay_outside {address : Nat} (outside : address < start ∨ start + size ≤ address) :
    overlay memory start size bytes address = memory address := by
  rw [overlay, if_neg (by omega)]

end Overlay

section Descriptors

/-- A granular limit is shifted under ones. -/
theorem granular_shift {limit : Nat} : limit <<< 12 ||| 0xFFF = 4096 * limit + 4095 := by
  rw [Nat.shiftLeft_eq, Nat.mul_comm limit]
  exact (Nat.two_pow_add_eq_or_of_lt (show 0xFFF < 2 ^ 12 by decide) limit).symm

/-- The processor and `decodeDescriptor` read a descriptor alike. -/
theorem segmentAt_eq_decode (bytes : Nat → UInt8) (start : Nat) :
    segmentAt bytes start = ⟨(decodeDescriptor bytes start).base.toNat,
      (decodeDescriptor bytes start).limit.toNat, (decodeDescriptor bytes start).type⟩ := by
  have byte : ∀ offset, (bytes offset).toNat < 256 := fun offset => (bytes offset).toNat_lt
  have nibble : (bytes (start + 6) &&& 0x0F).toNat < 16 := by
    rw [UInt8.toNat_and]
    exact Nat.lt_of_le_of_lt Nat.and_le_right (by decide)
  have base : littleEndian [bytes (start + 2), bytes (start + 3), bytes (start + 4),
      bytes (start + 7)] = word16 bytes (start + 2) + 65536 * (bytes (start + 4)).toNat +
        16777216 * (bytes (start + 7)).toNat := by
    simp only [littleEndian, List.foldr_cons, List.foldr_nil, word16]
    rw [show start + 2 + 1 = start + 3 from rfl]
    omega
  have limit : littleEndian [bytes start, bytes (start + 1), bytes (start + 6) &&& 0x0F] =
      word16 bytes start + 65536 * (bytes (start + 6) &&& 0x0F).toNat := by
    simp only [littleEndian, List.foldr_cons, List.foldr_nil, word16]
    omega
  have limited : word16 bytes start + 65536 * (bytes (start + 6) &&& 0x0F).toNat < 1048576 := by
    have first := byte start
    have second := byte (start + 1)
    unfold word16
    omega
  have based : word16 bytes (start + 2) + 65536 * (bytes (start + 4)).toNat +
      16777216 * (bytes (start + 7)).toNat < 4294967296 := by
    have first := byte (start + 2)
    have second := byte (start + 2 + 1)
    have third := byte (start + 4)
    have fourth := byte (start + 7)
    unfold word16
    omega
  rw [segmentAt, decodeDescriptor]
  dsimp only
  rw [base, limit, UInt32.toNat_ofNat_of_lt' based]
  by_cases granular : bytes (start + 6) &&& 0x80 ≠ 0
  · rw [if_pos granular, if_pos granular, granular_shift,
      UInt32.toNat_ofNat_of_lt' (show _ < 4294967296 by omega)]
  · rw [if_neg granular, if_neg granular,
      UInt32.toNat_ofNat_of_lt' (show _ < 4294967296 by omega)]

/-- Every descriptor of the kernel is accepted. -/
theorem kernelSegments_encodable (symbols : Symbols) :
    ∀ entry ∈ kernelSegments symbols, entry.Encodable := by
  intro entry member
  simp only [kernelSegments, List.mem_cons, List.not_mem_nil, or_false] at member
  rcases member with rfl | rfl | rfl | rfl | rfl | rfl
  · exact .inl (show (0 : UInt32) ≤ 65536 by decide)
  iterate 4 exact .inr (show (0xffffffff : UInt32) &&& 0xFFF = 0xFFF by decide)
  · exact .inl (show (108 : UInt32) ≤ 65536 by decide)

end Descriptors

/-- The tables that the processor uses in the kernel. -/
structure TablesReady (symbols : Symbols) (tables : Tables) : Prop where
  idtr : tables.idtr = ⟨symbols.idtDescriptors.toNat, 4095⟩
  gdtr : tables.gdtr = ⟨symbols.gdtReal.toNat, sizeofGdtReal⟩
  tr : tables.tr = ⟨symbols.tss.toNat, sizeofTss⟩
  gates : ∀ vector < peachosTotalInterrupts,
    gateAt tables.memory (symbols.idtDescriptors.toNat + sizeofIdtDesc * vector) =
      kernelGate (symbols.handler vector)
  segments : ∀ (i : Nat) (entry : GdtStructured), i < 5 →
    (kernelSegments symbols)[i]? = some entry →
    segmentAt tables.memory (symbols.gdtReal.toNat + sizeofGdt * i) =
      ⟨entry.base.toNat, entry.limit.toNat, entry.type⟩
  tss : ∀ offset < sizeofTss, tables.memory (symbols.tss.toNat + offset) = tssBytes offset

section Tables

variable {symbols : Symbols} {tables : Tables}

/-- The arrays in the memory before `tss_load`. -/
structure TablesBuilt (symbols : Symbols) (tables : Tables) : Prop where
  idtr : tables.idtr = ⟨symbols.idtDescriptors.toNat, 4095⟩
  gdtr : tables.gdtr = ⟨symbols.gdtReal.toNat, sizeofGdtReal⟩
  gates : ∀ vector < peachosTotalInterrupts,
    gateAt tables.memory (symbols.idtDescriptors.toNat + sizeofIdtDesc * vector) =
      kernelGate (symbols.handler vector)
  segments : ∀ (i : Nat) (entry : GdtStructured), (kernelSegments symbols)[i]? = some entry →
    segmentAt tables.memory (symbols.gdtReal.toNat + sizeofGdt * i) =
      ⟨entry.base.toNat, entry.limit.toNat, entry.type⟩
  tss : ∀ offset < sizeofTss, tables.memory (symbols.tss.toNat + offset) = tssBytes offset

/-- The three arrays, one written after the other. -/
theorem tablesBuilt_of_overlays (placed : symbols.Placed) {memory gdt idt : Nat → UInt8}
    {tr : TableRegister}
    (decoded : ∀ i entry, (kernelSegments symbols)[i]? = some entry →
      decodeDescriptor gdt (sizeofGdt * i) = entry)
    (gates : ∀ vector < peachosTotalInterrupts,
      gateAt idt (sizeofIdtDesc * vector) = kernelGate (symbols.handler vector)) :
    TablesBuilt symbols {
      memory := overlay (overlay (overlay memory symbols.gdtReal.toNat sizeofGdtReal gdt)
        symbols.idtDescriptors.toNat sizeofIdtDescriptors idt) symbols.tss.toNat sizeofTss tssBytes
      gdtr := ⟨symbols.gdtReal.toNat, sizeofGdtReal⟩
      idtr := ⟨symbols.idtDescriptors.toNat, 4095⟩
      tr := tr } where
  idtr := rfl
  gdtr := rfl
  gates := by
    intro vector inside
    have apart := placed.idtTss
    rw [← gates vector inside]
    refine gateAt_congr fun offset below => ?_
    unfold sizeofIdtDescriptors sizeofIdtDesc peachosTotalInterrupts at *
    dsimp only
    rw [overlay_outside (by omega), Nat.add_assoc]
    exact overlay_inside (by omega)
  segments := by
    intro i entry here
    have gdtIdt := placed.gdtIdt
    have gdtTss := placed.gdtTss
    have inside : i < 6 := (List.getElem?_eq_some_iff.mp here).1
    rw [← decoded i entry here, ← segmentAt_eq_decode]
    refine segmentAt_congr fun offset below => ?_
    unfold sizeofGdtReal sizeofGdt peachosTotalGdtSegments at *
    dsimp only
    rw [overlay_outside (by omega), overlay_outside (by omega), Nat.add_assoc]
    exact overlay_inside (by omega)
  tss := fun offset inside => overlay_inside inside

/-- The selector of a descriptor in the table of the kernel. -/
theorem descriptor_of_segmentAt (gdtr : tables.gdtr = ⟨symbols.gdtReal.toNat, sizeofGdtReal⟩)
    {i : Nat} (positive : 0 < i) (inside : i < 6) {segment : Segment}
    (here : segmentAt tables.memory (symbols.gdtReal.toNat + sizeofGdt * i) = segment)
    {selector : Nat} (selects : selector / 8 = i) (global : selector / 4 % 2 = 0) :
    tables.descriptor selector = some segment := by
  have limit : tables.gdtr.limit = 48 := congrArg TableRegister.limit gdtr
  rw [Tables.descriptor, if_neg (by omega), gdtr, selects, Nat.mul_comm]
  exact congrArg some here

/-- `tss_load` marks the descriptor of the task state segment and leaves the rest. -/
theorem TablesBuilt.load (placed : symbols.Placed) (built : TablesBuilt symbols tables) :
    ∃ loaded, tables.ltr 0x28 = .ok loaded ∧ TablesReady symbols loaded := by
  have here := descriptor_of_segmentAt built.gdtr (by decide) (by decide)
    (built.segments 5 ⟨symbols.tss, 108, 0xE9⟩ rfl) (show 0x28 / 8 = 5 by decide) (by decide)
  refine ⟨_, Tables.ltr_ok here (show (0xE9 : UInt8) &&& 0x1F = 0x09 by decide)
    (show (0xE9 : UInt8) &&& 0x80 ≠ 0 by decide), built.idtr, built.gdtr, rfl, ?_, ?_, ?_⟩
  all_goals
    have gdtIdt := placed.gdtIdt
    have gdtTss := placed.gdtTss
    unfold sizeofGdtReal sizeofGdt peachosTotalGdtSegments sizeofIdtDescriptors sizeofIdtDesc
      peachosTotalInterrupts at *
  · intro vector inside
    rw [← built.gates vector inside]
    refine gateAt_congr fun offset below => ?_
    rw [built.gdtr]
    exact Function.update_of_ne (by dsimp only; omega) ..
  · intro i entry inside present
    rw [← built.segments i entry present]
    refine segmentAt_congr fun offset below => ?_
    rw [built.gdtr]
    exact Function.update_of_ne (by dsimp only; omega) ..
  · intro offset inside
    rw [← built.tss offset inside, built.gdtr]
    exact Function.update_of_ne (by dsimp only; omega) ..

/-- **Setting up the tables** always succeeds. -/
theorem kernelMainTables_ready (placed : symbols.Placed) (idt : IdtState) (tables : Tables) :
    ∃ loaded, kernelMainTables symbols idt tables = some loaded ∧ TablesReady symbols loaded := by
  obtain ⟨gdt, gdtRun, decoded, _⟩ := gdtStructuredToGdtLoop_encoded (kernelSegments symbols) 0
    { bytes := fun _ => 0 } (kernelSegments_encodable symbols)
  have gdtRun' : (gdtStructuredToGdt (kernelSegments symbols)).run { bytes := fun _ => 0 } =
    .ok ((), gdt) := gdtRun
  obtain ⟨after, idtRun, ready⟩ := idtInit_run symbols idt
  have built : TablesBuilt symbols _ := @tablesBuilt_of_overlays _ placed tables.memory gdt.bytes
    after.idtDescriptors tables.tr (fun i entry here => by
      have entry' := decoded i entry here
      rwa [Nat.zero_add] at entry') ready.gates
  obtain ⟨loaded, load, ready'⟩ := built.load placed
  refine ⟨loaded, ?_, ready'⟩
  rw [kernelMainTables, gdtRun', idtRun]
  dsimp only [Except.toOption, Option.bind_eq_bind, Option.bind_some, Tables.lgdt, Tables.lidt]
  rw [ready.idtr, load]

theorem TablesReady.code (ready : TablesReady symbols tables) :
    tables.descriptor kernelCodeSelector = some kernelCode :=
  descriptor_of_segmentAt ready.gdtr (by decide) (by decide)
    (ready.segments 1 ⟨0, 0xffffffff, 0x9a⟩ (by decide) rfl) (by decide) (by decide)

theorem TablesReady.data (ready : TablesReady symbols tables) :
    tables.descriptor kernelDataSelector = some kernelData :=
  descriptor_of_segmentAt ready.gdtr (by decide) (by decide)
    (ready.segments 2 ⟨0, 0xffffffff, 0x92⟩ (by decide) rfl) (by decide) (by decide)

/-- The stack of the kernel. -/
theorem TablesReady.innerStack (ready : TablesReady symbols tables) :
    tables.innerStack 0 = .ok (kernelDataSelector, kernelStackTop) := by
  have base : tables.tr.base = symbols.tss.toNat := congrArg TableRegister.base ready.tr
  have limit : tables.tr.limit = 108 := congrArg TableRegister.limit ready.tr
  have esp : word32 tables.memory (tables.tr.base + (8 * 0 + 4)) = kernelStackTop := by
    rw [base, @word32_congr _ tssBytes _ 4 fun offset inside => by
      rw [Nat.add_assoc]
      exact ready.tss (4 + offset) (by unfold sizeofTss; omega)]
    decide
  have ss : word16 tables.memory (tables.tr.base + (8 * 0 + 8)) = kernelDataSelector := by
    rw [base, @word16_congr _ tssBytes _ 8 fun offset inside => by
      rw [Nat.add_assoc]
      exact ready.tss (8 + offset) (by unfold sizeofTss; omega)]
    decide
  have found := @Tables.innerStack_ok tables 0 kernelData (by rw [limit]; decide)
    (by rw [ss]; exact ready.data) (by rw [ss]; decide) (by decide) (by decide) (by decide)
    (by rw [esp]; decide) (by rw [esp]; decide)
  rwa [ss, esp] at found

/-- What the gates have in common. -/
theorem kernelGate_open (address : UInt32) : (kernelGate address).IsInterruptOrTrap ∧
    (kernelGate address).Present ∧ (kernelGate address).dpl = 3 ∧
    (kernelGate address).isTrap = false :=
  ⟨show (0xEE : UInt8) &&& 0x1E = 0x0E by decide, show (0xEE : UInt8) &&& 0x80 ≠ 0 by decide,
    show (0xEE : UInt8).toNat / 32 % 4 = 3 by decide,
    show decide ((0xEE : UInt8) &&& 0x01 ≠ 0) = false by decide⟩

theorem kernelGate_selector (address : UInt32) :
    (kernelGate address).selector / 4 * 4 + 0 = kernelCodeSelector :=
  show 0x08 / 4 * 4 + 0 = 0x08 by decide

/-- The gate of a vector. -/
theorem TablesReady.gate (ready : TablesReady symbols tables) {vector : Nat}
    (inside : vector < peachosTotalInterrupts) : 8 * vector + 7 ≤ tables.idtr.limit ∧
      gateAt tables.memory (tables.idtr.base + 8 * vector) =
        kernelGate (symbols.handler vector) ∧
      (kernelGate (symbols.handler vector)).offset ≤ kernelCode.limit := by
  have bound := (symbols.handler vector).toNat_lt
  rw [ready.idtr]
  refine ⟨?_, ready.gates vector inside, Nat.le_of_lt_succ bound⟩
  unfold peachosTotalInterrupts at inside
  dsimp only
  omega

/-- Every interrupt of a program. -/
theorem TablesReady.deliver_user (ready : TablesReady symbols tables) {vector : Nat}
    (inside : vector < peachosTotalInterrupts) (software : Bool) :
    tables.deliver 3 software vector = .ok ⟨kernelCodeSelector, (symbols.handler vector).toNat,
      some (kernelDataSelector, kernelStackTop), false⟩ := by
  obtain ⟨kind, present, dpl, trap⟩ := kernelGate_open (symbols.handler vector)
  obtain ⟨limit, gate, reachable⟩ := ready.gate inside
  have entered := @Tables.deliver_outer tables 3 software vector kernelCode _ _ limit gate kind
    dpl.ge present ready.code (by decide) (by decide) (by decide) (by decide) reachable
    ready.innerStack
  rw [trap, show kernelCode.dpl = 0 by decide, kernelGate_selector] at entered
  exact entered

/-- Every interrupt of the kernel. -/
theorem TablesReady.deliver_kernel (ready : TablesReady symbols tables) {vector : Nat}
    (inside : vector < peachosTotalInterrupts) (software : Bool) :
    tables.deliver 0 software vector =
      .ok ⟨kernelCodeSelector, (symbols.handler vector).toNat, none, false⟩ := by
  obtain ⟨kind, present, dpl, trap⟩ := kernelGate_open (symbols.handler vector)
  obtain ⟨limit, gate, reachable⟩ := ready.gate inside
  have entered := @Tables.deliver_same tables 0 software vector kernelCode _ limit gate kind
    (Nat.zero_le _) present ready.code (by decide) (by decide) (by decide) reachable
  rw [trap, kernelGate_selector] at entered
  exact entered

end Tables

/-- The interrupt enters the kernel where the model of the handlers starts. -/
structure EntersKernel (tables : Tables) (vector handler : Nat) : Prop where
  user : ∀ software, ∃ entry, tables.deliver 3 software vector = .ok entry ∧
    entry.eip = handler ∧ entry.keepsInterrupts = false ∧
    ∀ (user : Cpu) (memory : Memory), entry.state user memory = enterKernel user memory
  kernel : ∀ software, tables.deliver 0 software vector =
    .ok ⟨kernelCodeSelector, handler, none, false⟩

/-- **Entering the kernel.** Whatever the memory, the processor and the variables held before,
`kernel_main` sets up tables with which every vector enters the kernel at its handler: `idt_zero`,
`isr80h_wrapper` or its entry of `interrupt_pointer_table`. No other vector does. -/
theorem kernelMainTables_deliver {symbols : Symbols} (placed : symbols.Placed) (idt : IdtState)
    (before : Tables) : ∃ tables, kernelMainTables symbols idt before = some tables ∧
      (∀ vector < peachosTotalInterrupts,
        EntersKernel tables vector (symbols.handler vector).toNat) ∧
      ∀ vector, peachosTotalInterrupts ≤ vector → ∀ level software,
        tables.deliver level software vector = .error .generalProtection := by
  obtain ⟨tables, loaded, ready⟩ := kernelMainTables_ready placed idt before
  refine ⟨tables, loaded, fun vector inside => ⟨fun software => ?_, ?_⟩, ?_⟩
  · exact ⟨_, ready.deliver_user inside software, rfl, rfl, fun _ _ => rfl⟩
  · exact ready.deliver_kernel inside
  · intro vector outside level software
    have limit : tables.idtr.limit = 4095 := congrArg TableRegister.limit ready.idtr
    unfold peachosTotalInterrupts at outside
    rw [Tables.deliver, if_pos (by omega)]

/-- A placement of the arrays in the memory above the first megabyte. -/
def someSymbols : Symbols where
  idtDescriptors := 0x00106000
  gdtReal := 0x00107000
  tss := 0x00107040
  interruptPointerTable := fun vector => 0x00110000 + 16 * UInt32.ofNat vector
  idtZero := 0x00101000
  isr80hWrapper := 0x00112000
  idtHandleException := 0x00101100
  idtClock := 0x00101200

theorem someSymbols_placed : someSymbols.Placed where
  gdtIdt := by decide
  gdtTss := by decide
  idtTss := by decide

/-- The clock and `int 0x80` with that placement. -/
theorem kernelMainTables_deliver_some : ∃ tables,
    kernelMainTables someSymbols ⟨fun _ => 0, ⟨0, 0⟩, [], [], ⟨0, 0⟩⟩
      ⟨fun _ => 0, ⟨0, 0⟩, ⟨0, 0⟩, ⟨0, 0⟩⟩ = some tables ∧
    EntersKernel tables 0x20 0x00110200 ∧ EntersKernel tables 0x80 0x00112000 := by
  obtain ⟨tables, loaded, enters, _⟩ := kernelMainTables_deliver someSymbols_placed
    ⟨fun _ => 0, ⟨0, 0⟩, [], [], ⟨0, 0⟩⟩ ⟨fun _ => 0, ⟨0, 0⟩, ⟨0, 0⟩, ⟨0, 0⟩⟩
  exact ⟨tables, loaded, enters 0x20 (by decide), enters 0x80 (by decide)⟩

end Peachos
