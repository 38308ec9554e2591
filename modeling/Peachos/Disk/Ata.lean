import Peachos.Disk.StreamerSpec
import Peachos.Foundation.PortMachine

/-! # Reading sectors from the ATA drive

The two implementations of a read: `disk_read_sector` of the kernel, with the routines of `io.asm`,
and `ata_lba_read` of the boot loader. Both write the same values to the ports of the drive and go
along with each other through the polling and the transfer of the words.
-/

namespace Peachos

namespace Ata

open Ports PortMachine

/-- `outb`: `out dx, al` with the low parts of the arguments on the stack. -/
def outb (port : BitVec 16) (val : BitVec 8) : P Unit := outByte port val

/-- `insw`: `in ax, dx` with `eax` cleared before. -/
def insw (port : BitVec 16) : P (BitVec 16) := inWord port

/-- The loop of `disk_read_sector` over the words of a sector: `ptr` after it. -/
def readWords : (count : Nat) → (ptr : BitVec 32) → P (BitVec 32)
  | 0, ptr => pure ptr
  | count + 1, ptr => do
      let word ← insw 0x1F0
      storeWord ptr word
      readWords count (ptr + 2)

/-- The drive has a sector to be read. -/
def ready (c : BitVec 8) : Bool := c &&& 0x08 ≠ 0

/-- The loop of `disk_read_sector` over the sectors that are left. The `while` around `insb` is
`readUntil`. -/
def readSectors : (count : Nat) → (ptr : BitVec 32) → P Unit
  | 0, _ => pure ()
  | count + 1, ptr => do
      readUntil 0x1F7 ready
      let ptr ← readWords 256 ptr
      readSectors count ptr

/-- `disk_read_sector`. The arguments are an `int`, an `int` and a pointer, and the shifts are
those of an `int`. -/
def diskReadSector (lba total buf : BitVec 32) : P (BitVec 32) := do
  outb 0x1F6 ((lba.sshiftRight 24 ||| 0xE0).setWidth 8)
  outb 0x1F2 (total.setWidth 8)
  outb 0x1F3 ((lba &&& 0xFF).setWidth 8)
  outb 0x1F4 ((lba.sshiftRight 8).setWidth 8)
  outb 0x1F5 ((lba.sshiftRight 16).setWidth 8)
  outb 0x1F7 0x20
  readSectors total.toInt.toNat buf
  pure 0

/-- `ata_lba_read`. The label `.next_sector` is at 22 and `.try_again` at 23. -/
def ataLbaRead : List Instr := [
  .mov .ebx .eax,
  .shr .eax 24,
  .or .eax 0xE0,
  .movDx 0x1F6,
  .out,
  .mov .eax .ecx,
  .movDx 0x1F2,
  .out,
  .mov .eax .ebx,
  .movDx 0x1F3,
  .out,
  .movDx 0x1F4,
  .mov .eax .ebx,
  .shr .eax 8,
  .out,
  .movDx 0x1F5,
  .mov .eax .ebx,
  .shr .eax 16,
  .out,
  .movDx 0x1F7,
  .movAl 0x20,
  .out,
  .push .ecx,
  .movDx 0x1F7,
  .inAl,
  .testAl 8,
  .jz 23,
  .movImm .ecx 256,
  .movDx 0x1F0,
  .repInsw,
  .pop .ecx,
  .loop 22,
  .ret]

/-- `ata_lba_read` is called, with what the other registers hold. -/
def called (cpu : Cpu) (lba count destination : BitVec 32) (answers : List (BitVec 16)) : State where
  cpu := { cpu with eax := lba, ecx := count, edi := destination }
  line := { answers := answers }

section Code

/-- The loop at `.try_again`. -/
theorem tryAgain_simulates {stack : List (BitVec 32)} (length : Nat) :
    ∀ {cpu : Cpu} {line : Line}, line.answers.length = length →
      Simulates ataLbaRead ⟨cpu, stack, 23, line⟩ (readUntil 0x1F7 ready)
        fun _ final => ∃ cpu' line', final = ⟨cpu', stack, 27, line'⟩ ∧ cpu'.edi = cpu.edi := by
  induction length using Nat.strong_induction_on with
  | _ length ih =>
      intro cpu line same
      refine .congr (readUntil_eq _ _) (.step rfl rfl (.inAl rfl (Cpu.setDx_dx _) ?_))
      intro value line' fewer
      -- `test al, 8` and `jz`
      refine .step rfl rfl (.step rfl rfl ?_)
      change Simulates ataLbaRead ⟨{ (cpu.setDx 0x1F7).setAl value with
        zf := ((cpu.setDx 0x1F7).setAl value).al &&& 8 = 0 }, stack,
        if decide (((cpu.setDx 0x1F7).setAl value).al &&& 8 = 0) then 23 else 27, line'⟩ _ _
      rw [Cpu.setAl_al]
      by_cases clear : value &&& 8 = 0
      · have wait : ready value = false := by simpa [ready] using clear
        rw [wait, if_neg Bool.false_ne_true, if_pos (decide_eq_true clear)]
        exact ih line'.answers.length (same ▸ fewer) rfl
      · have go : ready value = true := by simpa [ready] using clear
        rw [go, if_pos rfl, if_neg (by simpa using clear)]
        exact .pure ⟨_, line', rfl, rfl⟩

/-- `rep insw` with the count in `ecx`. -/
theorem repInsw_simulates {stack : List (BitVec 32)} (count : Nat) :
    ∀ {cpu : Cpu} {line : Line}, cpu.ecx.toNat = count → cpu.dx = 0x1F0 →
      Simulates ataLbaRead ⟨cpu, stack, 29, line⟩ (readWords count cpu.edi)
        fun ptr final => ∃ cpu' line', final = ⟨cpu', stack, 30, line'⟩ ∧ cpu'.edi = ptr := by
  induction count with
  | zero =>
      intro cpu line none port
      have ended : step ataLbaRead ⟨cpu, stack, 29, line⟩ = .next ⟨cpu, stack, 30, line⟩ :=
        if_pos (BitVec.eq_of_toNat_eq none)
      exact .step ended rfl (.pure ⟨cpu, line, rfl, rfl⟩)
  | succ count ih =>
      intro cpu line some port
      have more : cpu.ecx ≠ 0 := by
        intro zero
        rw [zero] at some
        cases some
      have fewer : (cpu.ecx - 1).toNat = count := by
        rw [BitVec.toNat_sub_of_le (by bv_omega), some]
        rfl
      exact .insw rfl port more fun line' => ih fewer port

/-- One turn of the loop at `.next_sector`. The count is kept on the stack meanwhile. -/
theorem nextSector_turn {cpu : Cpu} {line : Line} {rest : BitVec 32 → P Unit}
    {post : Unit → State → Prop}
    (after : ∀ cpu' line', cpu'.ecx = cpu.ecx - 1 → Simulates ataLbaRead
      ⟨cpu', [], if cpu.ecx - 1 ≠ 0 then 22 else 32, line'⟩ (rest cpu'.edi) post) :
    Simulates ataLbaRead ⟨cpu, [], 22, line⟩
      (readUntil 0x1F7 ready >>= fun _ => readWords 256 cpu.edi >>= rest) post := by
  refine .step rfl rfl (.bind (tryAgain_simulates _ rfl) ?_)
  rintro _ _ ⟨polled, line', rfl, same⟩
  rw [← show polled.edi = cpu.edi from same]
  -- `mov ecx, 256` and `mov dx, 0x1F0`
  have words : (256 : BitVec 32).toNat = 256 := rfl
  have transfer := @repInsw_simulates [cpu.ecx] 256 ({ polled with ecx := 256 }.setDx 0x1F0) line'
    words (Cpu.setDx_dx _)
  refine .step rfl rfl (.step rfl rfl (transfer.bind ?_))
  rintro _ _ ⟨moved, line'', rfl, rfl⟩
  -- `pop ecx` and `loop`
  exact .step rfl rfl (.step rfl rfl (after { moved with ecx := cpu.ecx - 1 } line'' rfl))

/-- The loop at `.next_sector`, up to the `ret`. -/
theorem nextSector_simulates (count : Nat) : ∀ {cpu : Cpu} {line : Line},
    cpu.ecx.toNat = count + 1 →
      Simulates ataLbaRead ⟨cpu, [], 22, line⟩ (readSectors (count + 1) cpu.edi)
        fun _ final => step ataLbaRead final = .returned := by
  induction count with
  | zero =>
      intro cpu line last
      have zero : cpu.ecx - 1 = 0 := by bv_omega
      refine nextSector_turn fun cpu' line' _ => ?_
      rw [if_neg (not_not.mpr zero)]
      exact .pure rfl
  | succ count ih =>
      intro cpu line more
      have fewer : (cpu.ecx - 1).toNat = count + 1 := by bv_omega
      refine nextSector_turn fun cpu' line' counted => ?_
      rw [if_pos (by bv_omega)]
      exact ih (counted ▸ fewer)

/-- The low bytes of the shifts of an unsigned and of a signed number. -/
theorem setWidth_sshiftRight (value : BitVec 32) {count : Nat} (small : count ≤ 24) :
    (value.sshiftRight count).setWidth 8 = (value >>> count).setWidth 8 := by
  ext i inside
  rw [BitVec.getElem_setWidth, BitVec.getElem_setWidth, BitVec.getLsbD_sshiftRight,
    BitVec.getLsbD_ushiftRight, if_pos (by omega), decide_eq_false (by omega)]
  rfl

theorem setWidth_and (value : BitVec 32) :
    (value &&& 0xFF).setWidth 8 = value.setWidth 8 := by
  rw [BitVec.setWidth_and]
  exact BitVec.and_allOnes

/-- The value at port `0x1F6`. -/
theorem device_eq (lba : BitVec 32) : (lba >>> 24 ||| 0xE0).setWidth 8 =
    (lba.sshiftRight 24 ||| 0xE0).setWidth 8 := by
  rw [BitVec.setWidth_or, BitVec.setWidth_or, setWidth_sshiftRight lba le_rfl]

theorem toInt_of_positive {total : BitVec 32} (positive : 1 ≤ total.toInt) :
    total.toInt = total.toNat := by
  rw [BitVec.toInt_eq_toNat_cond] at positive ⊢
  split at positive
  · rw [if_pos ‹_›]
  · omega

/-- The registers hold the arguments, the address in `ebx`. -/
structure Args (lba total buf : BitVec 32) (cpu : Cpu) : Prop where
  ebx : cpu.ebx = lba
  ecx : cpu.ecx = total
  edi : cpu.edi = buf

/-- The instructions from `first` on write the value to the port, and come to `last` with the
arguments. -/
def Writes (lba total buf : BitVec 32) (start : Cpu → Prop) (first last : Nat) (port : BitVec 16)
    (value : BitVec 8) : Prop :=
  ∀ {cpu : Cpu} {line : Line} {rest : Unit → P (BitVec 32)} {post : BitVec 32 → State → Prop},
    start cpu → (∀ cpu', Args lba total buf cpu' → Simulates ataLbaRead
      ⟨cpu', [], last, line.record (.out port value)⟩ (rest ()) post) →
    Simulates ataLbaRead ⟨cpu, [], first, line⟩ (outb port value >>= rest) post

variable {lba total buf : BitVec 32}

theorem writes_device : Writes lba total buf
    (fun cpu => cpu.eax = lba ∧ cpu.ecx = total ∧ cpu.edi = buf) 0 5 0x1F6
    ((lba.sshiftRight 24 ||| 0xE0).setWidth 8) := by
  rintro cpu line rest post ⟨rfl, rfl, rfl⟩ after
  refine .step rfl rfl (.step rfl rfl (.step rfl rfl (.step rfl rfl ?_)))
  refine .out rfl (Cpu.setDx_dx _) ?_ (after _ ⟨rfl, rfl, rfl⟩)
  exact device_eq _

theorem writes_count :
    Writes lba total buf (Args lba total buf) 5 8 0x1F2 (total.setWidth 8) := by
  rintro cpu line rest post ⟨rfl, rfl, rfl⟩ after
  refine .step rfl rfl (.step rfl rfl ?_)
  exact .out rfl (Cpu.setDx_dx _) rfl (after _ ⟨rfl, rfl, rfl⟩)

theorem writes_low :
    Writes lba total buf (Args lba total buf) 8 11 0x1F3 ((lba &&& 0xFF).setWidth 8) := by
  rintro cpu line rest post ⟨rfl, rfl, rfl⟩ after
  refine .step rfl rfl (.step rfl rfl ?_)
  exact .out rfl (Cpu.setDx_dx _) (setWidth_and _).symm (after _ ⟨rfl, rfl, rfl⟩)

theorem writes_mid :
    Writes lba total buf (Args lba total buf) 11 15 0x1F4 ((lba.sshiftRight 8).setWidth 8) := by
  rintro cpu line rest post ⟨rfl, rfl, rfl⟩ after
  refine .step rfl rfl (.step rfl rfl (.step rfl rfl ?_))
  refine .out rfl (@Cpu.setDx_dx cpu _) ?_ (after _ ⟨rfl, rfl, rfl⟩)
  exact (setWidth_sshiftRight _ (by decide)).symm

theorem writes_high :
    Writes lba total buf (Args lba total buf) 15 19 0x1F5 ((lba.sshiftRight 16).setWidth 8) := by
  rintro cpu line rest post ⟨rfl, rfl, rfl⟩ after
  refine .step rfl rfl (.step rfl rfl (.step rfl rfl ?_))
  refine .out rfl (@Cpu.setDx_dx cpu _) ?_ (after _ ⟨rfl, rfl, rfl⟩)
  exact (setWidth_sshiftRight _ (by decide)).symm

theorem writes_command : Writes lba total buf (Args lba total buf) 19 22 0x1F7 0x20 := by
  rintro cpu line rest post ⟨rfl, rfl, rfl⟩ after
  refine .step rfl rfl (.step rfl rfl ?_)
  exact .out rfl (Cpu.setDx_dx _) (Cpu.setAl_al _) (after _ ⟨rfl, rfl, rfl⟩)

/-- The boot loader does what the kernel does, up to its `ret`. -/
theorem ataLbaRead_simulates (cpu : Cpu) (positive : 1 ≤ total.toInt)
    (answers : List (BitVec 16)) :
    Simulates ataLbaRead (called cpu lba total buf answers) (diskReadSector lba total buf)
      fun _ final => step ataLbaRead final = .returned := by
  refine (@writes_device lba total buf) ⟨rfl, rfl, rfl⟩ fun _ args => writes_count args fun _ args =>
    writes_low args fun _ args => writes_mid args fun _ args => writes_high args fun _ args =>
      writes_command args fun _ args => ?_
  have whole := toInt_of_positive positive
  obtain ⟨count, some⟩ : ∃ count, total.toNat = count + 1 := ⟨total.toNat - 1, by omega⟩
  rw [show total.toInt.toNat = count + 1 by omega, ← args.edi]
  refine (nextSector_simulates count (by rw [args.ecx, some])).bind fun _ _ returned => ?_
  exact .pure returned

end Code

section Seen

variable {lba total buf : BitVec 32}

theorem readWords_onlyReads (count : Nat) : ∀ ptr, OnlyReads (readWords count ptr)
    fun after words => after = ptr + BitVec.ofNat 32 (2 * count) ∧
      words.map Prod.fst = wordAddresses ptr count := by
  induction count with
  | zero => exact fun ptr => .pure ⟨(BitVec.add_zero ptr).symm, rfl⟩
  | succ count ih =>
      intro ptr
      have received : OnlyReads (insw 0x1F0) fun _ words => words = [] := .inWord fun _ => rfl
      have wrote : ∀ word, OnlyReads (storeWord ptr word) fun _ words => words = [(ptr, word)] :=
        fun _ => .storeWord rfl
      refine received.bind fun word _ none => (wrote word).bind fun _ _ one =>
        (ih (ptr + 2)).mono fun after words => ?_
      rintro ⟨rfl, same⟩
      rw [none, one, Nat.add_comm count, wordAddresses_add, Nat.mul_add, BitVec.ofNat_add,
        ← BitVec.add_assoc]
      simp [same, wordAddresses]

/-- The loop over the sectors stores their words one after the other. -/
theorem readSectors_onlyReads (count : Nat) : ∀ ptr, OnlyReads (readSectors count ptr)
    fun _ words => words.map Prod.fst = wordAddresses ptr (256 * count) := by
  induction count with
  | zero => exact fun ptr => .pure rfl
  | succ count ih =>
      intro ptr
      have polled : OnlyReads (readUntil 0x1F7 ready) fun _ words => words = [] := .readUntil rfl
      refine polled.bind fun _ _ none => (readWords_onlyReads 256 ptr).bind fun after before => ?_
      rintro ⟨rfl, same⟩
      refine (ih _).mono fun _ words more => ?_
      rw [none, List.nil_append, List.map_append, same, more,
        show 256 * (count + 1) = 256 + 256 * count by omega, wordAddresses_add]

/-- What is seen of `disk_read_sector`. -/
def seen (lba total buf : BitVec 32) (answers : List (BitVec 16)) : Outcome :=
  outcome (diskReadSector lba total buf) { answers := answers }

/-- The writes to the ports of the drive come first, one to each port. -/
theorem seen_accesses (lba total buf : BitVec 32) (answers : List (BitVec 16)) :
    ∃ added, (∀ port, written port added = []) ∧
      (seen lba total buf answers).accesses = [
        .out 0x1F6 ((lba.sshiftRight 24 ||| 0xE0).setWidth 8),
        .out 0x1F2 (total.setWidth 8),
        .out 0x1F3 ((lba &&& 0xFF).setWidth 8),
        .out 0x1F4 ((lba.sshiftRight 8).setWidth 8),
        .out 0x1F5 ((lba.sshiftRight 16).setWidth 8),
        .out 0x1F7 0x20] ++ added ∧
      ((seen lba total buf answers).returned = true →
        (stored added).map Prod.fst = wordAddresses buf (256 * total.toInt.toNat)) := by
  have reads : OnlyReads (readSectors total.toInt.toNat buf >>= fun _ => pure (0 : BitVec 32))
      fun _ words => words.map Prod.fst = wordAddresses buf (256 * total.toInt.toNat) :=
    (readSectors_onlyReads _ buf).bind fun _ words same => .pure (by rw [List.append_nil, same])
  have after : seen lba total buf answers =
      outcome (readSectors total.toInt.toNat buf >>= fun _ => pure (0 : BitVec 32)) {
        answers := answers
        accesses := [
          .out 0x1F6 ((lba.sshiftRight 24 ||| 0xE0).setWidth 8),
          .out 0x1F2 (total.setWidth 8),
          .out 0x1F3 ((lba &&& 0xFF).setWidth 8),
          .out 0x1F4 ((lba.sshiftRight 8).setWidth 8),
          .out 0x1F5 ((lba.sshiftRight 16).setWidth 8),
          .out 0x1F7 0x20] } := rfl
  obtain ⟨added, silent, rest⟩ := reads _
  refine ⟨added, silent, ?_⟩
  rw [after, outcome]
  split at rest
  next value final run =>
    rw [run]
    exact ⟨rest.1, fun _ => rest.2⟩
  next accesses run =>
    rw [run]
    exact ⟨rest, nofun⟩

/-- The sector that values in the ports `0x1F3` to `0x1F6` select. -/
def selected (low mid high device : BitVec 8) : Nat :=
  low.toNat + 256 * mid.toNat + 65536 * high.toNat + 16777216 * (device.toNat % 16)

/-- It is the sector that the model of the drive takes. -/
theorem selected_eq (lba : BitVec 32) :
    selected ((lba &&& 0xFF).setWidth 8) ((lba.sshiftRight 8).setWidth 8)
      ((lba.sshiftRight 16).setWidth 8) ((lba.sshiftRight 24 ||| 0xE0).setWidth 8) =
      ataSector lba.toInt := by
  have word : CInt.u32 lba.toInt = lba.toNat := by
    unfold CInt.u32
    rw [BitVec.toInt_eq_toNat_cond]
    split <;> omega
  rw [setWidth_and, setWidth_sshiftRight _ (by decide), setWidth_sshiftRight _ (by decide),
    ← device_eq, selected, ataSector, word]
  simp only [BitVec.toNat_setWidth, BitVec.toNat_ushiftRight, BitVec.toNat_or,
    Nat.shiftRight_eq_div_pow, Nat.or_mod_two_pow]
  rfl

/-- One value was written to each of the ports `0x1F3` to `0x1F6`. They select the sector, in the
LBA mode (bit 6), on the master (bit 4). -/
def Addresses (accesses : List Access) (sector : Nat) : Prop :=
  ∃ low mid high device, written 0x1F3 accesses = [low] ∧ written 0x1F4 accesses = [mid] ∧
    written 0x1F5 accesses = [high] ∧ written 0x1F6 accesses = [device] ∧
    selected low mid high device = sector ∧ device.getLsbD 6 = true ∧ device.getLsbD 4 = false

theorem seen_addresses (small : lba.toNat < 268435456) (answers : List (BitVec 16)) :
    Addresses (seen lba total buf answers).accesses lba.toNat := by
  obtain ⟨added, silent, same, _⟩ := seen_accesses lba total buf answers
  have only : ∀ port, written port (seen lba total buf answers).accesses = written port [
      .out 0x1F6 ((lba.sshiftRight 24 ||| 0xE0).setWidth 8),
      .out 0x1F2 (total.setWidth 8),
      .out 0x1F3 ((lba &&& 0xFF).setWidth 8),
      .out 0x1F4 ((lba.sshiftRight 8).setWidth 8),
      .out 0x1F5 ((lba.sshiftRight 16).setWidth 8),
      .out 0x1F7 0x20] := by
    intro port
    rw [same, written, List.filterMap_append, ← written, ← written, silent, List.append_nil]
  have sign : lba.toInt = lba.toNat := by
    rw [BitVec.toInt_eq_toNat_cond, if_pos (by omega)]
  refine ⟨_, _, _, _, only _, only _, only _, only _, ?_, ?_, ?_⟩
  · rw [selected_eq, sign, ataSector_small small]
  · rw [← device_eq]
    simp
  · rw [← device_eq]
    have clear : lba.getLsbD 28 = false := Nat.testBit_lt_two_pow small
    simpa using clear

end Seen

/-- The boot loader and the kernel read in the same way. -/
structure SameTransfer (cpu : Cpu) (lba total buf : BitVec 32) (answers : List (BitVec 16)) :
    Prop where
  /-- Both make the same accesses, in the same order, and return or wait for the same answer. -/
  same : Ends ataLbaRead (called cpu lba total buf answers) (seen lba total buf answers)
  /-- When they return, they have stored 256 words for each sector, one after the other. -/
  words : (seen lba total buf answers).returned = true →
    (stored (seen lba total buf answers).accesses).map Prod.fst =
      wordAddresses buf (256 * total.toNat)
  /-- A sector below `2^28` is addressed by its number, on the master. -/
  addressed : lba.toNat < 268435456 → Addresses (seen lba total buf answers).accesses lba.toNat

/-- **Two implementations of a read.** For every address, every positive count, every destination
and every sequence of answers of the ports, from whatever the other registers hold, the boot loader
makes the accesses that the kernel makes. -/
theorem ataLbaRead_refines (cpu : Cpu) (lba buf : BitVec 32) {total : BitVec 32}
    (positive : 1 ≤ total.toInt) (answers : List (BitVec 16)) :
    SameTransfer cpu lba total buf answers where
  same := (ataLbaRead_simulates cpu positive answers).ends
  words := by
    intro returned
    obtain ⟨added, _, same, words⟩ := seen_accesses lba total buf answers
    rw [same, stored, List.filterMap_append]
    have count : total.toInt.toNat = total.toNat := by
      rw [toInt_of_positive positive, Int.toNat_natCast]
    rw [← count, ← words returned]
    rfl
  addressed := fun small => seen_addresses small answers

/-- The boot loader reads the kernel, 100 sectors from sector 1 on, to `0x100000`. The drive is
busy, then ready, and delivers a word. -/
theorem ataLbaRead_refines_kernel :
    SameTransfer ⟨1, 0, 100, 0, 0x100000, false⟩ 1 100 0x100000 [0xD0, 0x58, 0xEA] :=
  ataLbaRead_refines _ 1 0x100000 (by decide) _

end Ata

end Peachos
