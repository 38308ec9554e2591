import Peachos.Loader.Elf

/-! # What the ELF loader reads

`Observes` says what a check of the header answers and reads. The program headers are the list
`elfProgramHeaders`, and processing them is a fold over it that reads the header and the table
(`elfProcessPheaders_run`).
-/

namespace Peachos

open CInt

section Observe

variable {α β : Type} {memory : Nat → UInt8}

/-- The program answers `value` and reads what is in `added`, and that is all it does. -/
def Observes (memory : Nat → UInt8) (program : ElfM α) (value : α) (added : List (Nat × Nat)) :
    Prop :=
  ∀ file reads, program.run ⟨memory, file, reads⟩ = .ok (value, ⟨memory, file, reads ++ added⟩)

theorem Observes.pure (value : α) : Observes memory (Pure.pure value : ElfM α) value [] := by
  intro file reads
  rw [Exec.run_pure, List.append_nil]

theorem Observes.bind {program : ElfM α} {next : α → ElfM β} {value : α} {result : β}
    {added later : List (Nat × Nat)} (first : Observes memory program value added)
    (rest : Observes memory (next value) result later) :
    Observes memory (program >>= next) result (added ++ later) := by
  intro file reads
  rw [Exec.bind_of_ok (first file reads), rest file (reads ++ added), List.append_assoc]

theorem readHeader_observes (header offset size : Nat) : Observes memory
    (readHeader header offset size) (wordAt memory (header + offset) size)
    [(u32 (header + offset), size)] :=
  fun _ _ => rfl

end Observe

/-- A program header, the fields that are read. -/
structure Elf32Phdr where
  pType : Nat
  pOffset : Nat
  pVaddr : Nat
  pFilesz : Nat
  deriving DecidableEq, Repr

/-- The program header at an address. -/
def Elf32Phdr.at (memory : Nat → UInt8) (phdr : Nat) : Elf32Phdr where
  pType := wordAt memory (phdr + 0) 4
  pOffset := wordAt memory (phdr + 4) 4
  pVaddr := wordAt memory (phdr + 8) 4
  pFilesz := wordAt memory (phdr + 16) 4

/-- The address of the program header table, null where the image has none. -/
def pheaderAddress (memory : Nat → UInt8) (header : Nat) : Nat :=
  if wordAt memory (header + 28) 4 = 0 then 0 else u32 (header + wordAt memory (header + 28) 4)

/-- The address of a program header. -/
def phdrAddress (memory : Nat → UInt8) (header index : Nat) : Nat :=
  u32 (pheaderAddress memory header + sizeofElf32Phdr * index)

/-- The number of program headers. -/
def phdrCount (memory : Nat → UInt8) (header : Nat) : Nat := wordAt memory (header + 44) 2

/-- The program header table of an image. -/
def elfProgramHeaders (memory : Nat → UInt8) (header : Nat) : List Elf32Phdr :=
  (List.range (phdrCount memory header)).map fun index =>
    Elf32Phdr.at memory (phdrAddress memory header index)

/-- The bounds of a file with one more segment at their lower end. -/
def ElfFile.lowerBase (file : ElfFile) (phdr : Elf32Phdr) : ElfFile :=
  if file.virtualBaseAddress ≥ phdr.pVaddr ∨ file.virtualBaseAddress = 0 then
    { file with
      virtualBaseAddress := phdr.pVaddr
      physicalBaseAddress := u32 (file.elfMemory + phdr.pOffset) }
  else file

/-- The bounds of a file with one more segment at their upper end. -/
def ElfFile.raiseEnd (file : ElfFile) (phdr : Elf32Phdr) : ElfFile :=
  let endVirtualAddress := u32 (phdr.pVaddr + phdr.pFilesz)
  if file.virtualEndAddress ≤ endVirtualAddress ∨ file.virtualEndAddress = 0 then
    { file with
      virtualEndAddress := endVirtualAddress
      physicalEndAddress := u32 (file.elfMemory + phdr.pOffset + phdr.pFilesz) }
  else file

/-- The bounds of a file after one more program header. -/
def ElfFile.process (file : ElfFile) (phdr : Elf32Phdr) : ElfFile :=
  if phdr.pType = ptLoad then (file.lowerBase phdr).raiseEnd phdr else file

section Process

variable {memory : Nat → UInt8} {file : ElfFile} {reads : List (Nat × Nat)} {phdr header : Nat}

/-- The program leaves the bounds `final` and makes only reads that are allowed. -/
def Processes {α : Type} (memory : Nat → UInt8) (file : ElfFile) (reads : List (Nat × Nat))
    (program : ElfM α) (value : α) (final : ElfFile) (allowed : Nat × Nat → Prop) : Prop :=
  ∃ added, program.run ⟨memory, file, reads⟩ = .ok (value, ⟨memory, final, reads ++ added⟩) ∧
    ∀ read ∈ added, allowed read

theorem readPhdr_run (offset : Nat) : (readPhdr phdr offset).run ⟨memory, file, reads⟩ =
    .ok (wordAt memory (phdr + offset) 4,
      ⟨memory, file, reads ++ [(phdr, sizeofElf32Phdr)]⟩) := rfl

theorem elfLowerBase_run : Processes memory file reads (elfLowerBase phdr) ()
    (file.lowerBase (.at memory phdr)) (· = (phdr, sizeofElf32Phdr)) := by
  unfold elfLowerBase pVaddr pOffset
  by_cases lower : file.virtualBaseAddress ≥ wordAt memory (phdr + 8) 4 ∨
      file.virtualBaseAddress = 0
  · refine ⟨List.replicate 3 (phdr, sizeofElf32Phdr), ?_, fun read => List.eq_of_mem_replicate⟩
    rw [Exec.bind_of_ok (Exec.run_read _ _), Exec.bind_of_ok (readPhdr_run 8), if_pos lower,
      Exec.bind_of_ok (readPhdr_run 8), Exec.bind_of_ok (readPhdr_run 4), Exec.run_update,
      ElfFile.lowerBase, Elf32Phdr.at, if_pos lower]
    simp only [List.append_assoc]
    rfl
  · refine ⟨[(phdr, sizeofElf32Phdr)], ?_, fun read => List.mem_singleton.mp⟩
    rw [Exec.bind_of_ok (Exec.run_read _ _), Exec.bind_of_ok (readPhdr_run 8), if_neg lower,
      Exec.run_pure, ElfFile.lowerBase, Elf32Phdr.at, if_neg lower]

theorem elfRaiseEnd_run : Processes memory file reads (elfRaiseEnd phdr) ()
    (file.raiseEnd (.at memory phdr)) (· = (phdr, sizeofElf32Phdr)) := by
  unfold elfRaiseEnd pVaddr pFilesz pOffset
  by_cases upper : file.virtualEndAddress ≤
      u32 (wordAt memory (phdr + 8) 4 + wordAt memory (phdr + 16) 4) ∨ file.virtualEndAddress = 0
  · refine ⟨List.replicate 4 (phdr, sizeofElf32Phdr), ?_, fun read => List.eq_of_mem_replicate⟩
    rw [Exec.bind_of_ok (readPhdr_run 8), Exec.bind_of_ok (readPhdr_run 16),
      Exec.bind_of_ok (Exec.run_read _ _), if_pos upper, Exec.bind_of_ok (readPhdr_run 4),
      Exec.bind_of_ok (readPhdr_run 16), Exec.run_update, ElfFile.raiseEnd, Elf32Phdr.at]
    dsimp only
    rw [if_pos upper]
    simp only [List.append_assoc]
    rfl
  · refine ⟨List.replicate 2 (phdr, sizeofElf32Phdr), ?_, fun read => List.eq_of_mem_replicate⟩
    rw [Exec.bind_of_ok (readPhdr_run 8), Exec.bind_of_ok (readPhdr_run 16),
      Exec.bind_of_ok (Exec.run_read _ _), if_neg upper, Exec.run_pure, ElfFile.raiseEnd,
      Elf32Phdr.at]
    dsimp only
    rw [if_neg upper]
    simp only [List.append_assoc]
    rfl

/-- **One program header.** -/
theorem elfProcessPheader_run : Processes memory file reads (elfProcessPheader phdr) 0
    (file.process (.at memory phdr)) (· = (phdr, sizeofElf32Phdr)) := by
  unfold elfProcessPheader pType
  by_cases loaded : wordAt memory (phdr + 0) 4 = ptLoad
  · have typed : (Elf32Phdr.at memory phdr).pType = ptLoad := loaded
    obtain ⟨lowered, lower, lowReads⟩ := @elfLowerBase_run memory file
      (reads ++ [(phdr, sizeofElf32Phdr)]) phdr
    obtain ⟨raised, raise, highReads⟩ := @elfRaiseEnd_run memory
      (file.lowerBase (.at memory phdr)) (reads ++ [(phdr, sizeofElf32Phdr)] ++ lowered) phdr
    refine ⟨(phdr, sizeofElf32Phdr) :: (lowered ++ raised), ?_, fun read member => ?_⟩
    · rw [Exec.bind_of_ok (readPhdr_run 0), if_pos loaded, elfProcessPhdrPtLoad,
        Exec.bind_of_ok lower, Exec.bind_of_ok raise, Exec.run_pure, ElfFile.process,
        if_pos typed]
      simp only [List.append_assoc, List.cons_append, List.nil_append]
    · rcases List.mem_cons.mp member with rfl | later
      · rfl
      · exact (List.mem_append.mp later).elim (lowReads read) (highReads read)
  · have typed : ¬ (Elf32Phdr.at memory phdr).pType = ptLoad := loaded
    refine ⟨[(phdr, sizeofElf32Phdr)], ?_, fun read => List.mem_singleton.mp⟩
    rw [Exec.bind_of_ok (readPhdr_run 0), if_neg loaded, Exec.run_pure, ElfFile.process,
      if_neg typed]

/-- The reads of the program header table: two header fields and the headers in it. -/
def TableRead (memory : Nat → UInt8) (header : Nat) (read : Nat × Nat) : Prop :=
  read = (u32 (header + (44 : Nat)), 2) ∨ read = (u32 (header + (28 : Nat)), 4) ∨
    ∃ index < phdrCount memory header, read = (phdrAddress memory header index, sizeofElf32Phdr)

theorem ePhnum_run : (ePhnum header).run ⟨memory, file, reads⟩ =
    .ok (phdrCount memory header, ⟨memory, file, reads ++ [(u32 (header + (44 : Nat)), 2)]⟩) :=
  rfl

theorem elfProgramHeader_run (index : Nat) :
    Processes memory file reads (elfProgramHeader header index)
      (phdrAddress memory header index) file (· = (u32 (header + (28 : Nat)), 4)) := by
  have field (reads : List (Nat × Nat)) : (ePhoff header).run ⟨memory, file, reads⟩ =
      .ok (wordAt memory (header + 28) 4,
        ⟨memory, file, reads ++ [(u32 (header + (28 : Nat)), 4)]⟩) := rfl
  unfold elfProgramHeader elfPheader phdrAddress pheaderAddress
  by_cases none : wordAt memory (header + 28) 4 = 0
  · refine ⟨[(u32 (header + (28 : Nat)), 4)], ?_, fun read => List.mem_singleton.mp⟩
    rw [Exec.bind_assoc, Exec.bind_of_ok (field reads), if_pos none,
      Exec.bind_of_ok (Exec.run_pure _ _), Exec.run_pure, if_pos none]
  · refine ⟨List.replicate 2 (u32 (header + (28 : Nat)), 4), ?_, fun read =>
      List.eq_of_mem_replicate⟩
    rw [Exec.bind_assoc, Exec.bind_of_ok (field reads), if_neg none, Exec.bind_assoc,
      Exec.bind_of_ok (field _), Exec.bind_of_ok (Exec.run_pure _ _), Exec.run_pure,
      if_neg none, List.append_assoc]
    rfl

/-- The rest of the table from a header on. -/
theorem drop_elfProgramHeaders {index : Nat} (inside : index < phdrCount memory header) :
    (elfProgramHeaders memory header).drop index =
      .at memory (phdrAddress memory header index) ::
        (elfProgramHeaders memory header).drop (index + 1) := by
  have length : (elfProgramHeaders memory header).length = phdrCount memory header := by
    rw [elfProgramHeaders, List.length_map, List.length_range]
  rw [List.drop_eq_getElem_cons (by rw [length]; exact inside)]
  congr 1
  simp only [elfProgramHeaders, List.getElem_map, List.getElem_range]

/-- The loop processes the rest of the table. -/
theorem elfProcessPheadersLoop_run : ∀ (fuel index : Nat) (file : ElfFile)
    (reads : List (Nat × Nat)), index ≤ phdrCount memory header →
    phdrCount memory header < fuel + index →
    Processes memory file reads (elfProcessPheadersLoop header fuel index 0) 0
      (((elfProgramHeaders memory header).drop index).foldl ElfFile.process file)
      (TableRead memory header) := by
  intro fuel
  induction fuel with
  | zero =>
      intro index file reads reached enough
      omega
  | succ fuel ih =>
      intro index file reads reached enough
      have counted : TableRead memory header (u32 (header + (44 : Nat)), 2) := .inl rfl
      rw [elfProcessPheadersLoop]
      by_cases more : index < phdrCount memory header
      · obtain ⟨located, locate, addressReads⟩ := @elfProgramHeader_run memory file
          (reads ++ [(u32 (header + (44 : Nat)), 2)]) header index
        obtain ⟨processed, process, headerReads⟩ := @elfProcessPheader_run memory file
          (reads ++ [(u32 (header + (44 : Nat)), 2)] ++ located) (phdrAddress memory header index)
        obtain ⟨added, rest, tableReads⟩ := ih (index + 1)
          (file.process (.at memory (phdrAddress memory header index)))
          (reads ++ [(u32 (header + (44 : Nat)), 2)] ++ located ++ processed) more (by omega)
        refine ⟨(u32 (header + (44 : Nat)), 2) :: (located ++ (processed ++ added)), ?_,
          fun read member => ?_⟩
        · rw [Exec.bind_of_ok ePhnum_run, if_pos more, Exec.bind_of_ok locate,
            Exec.bind_of_ok process, if_neg (by decide), rest, drop_elfProgramHeaders more,
            List.foldl_cons]
          simp only [List.append_assoc, List.cons_append, List.nil_append]
        · rcases List.mem_cons.mp member with rfl | later
          · exact counted
          rcases List.mem_append.mp later with address | later
          · exact .inr (.inl (addressReads read address))
          rcases List.mem_append.mp later with here | after
          · exact .inr (.inr ⟨index, more, headerReads read here⟩)
          · exact tableReads read after
      · refine ⟨[(u32 (header + (44 : Nat)), 2)], ?_, fun read member => ?_⟩
        · rw [Exec.bind_of_ok ePhnum_run, if_neg more, Exec.run_pure, List.drop_of_length_le (by
            rw [elfProgramHeaders, List.length_map, List.length_range]
            exact not_lt.mp more)]
          rfl
        · rw [List.mem_singleton.mp member]
          exact counted

theorem wordAt_lt (memory : Nat → UInt8) (address size : Nat) :
    wordAt memory address size < 256 ^ size := by
  have bound := littleEndian_lt
    ((List.range size).map fun offset : Nat => memory (u32 (address + offset)))
  rwa [List.length_map, List.length_range] at bound

/-- **The program header table.** -/
theorem elfProcessPheaders_run (memory : Nat → UInt8) (file : ElfFile)
    (reads : List (Nat × Nat)) :
    Processes memory file reads elfProcessPheaders 0
      ((elfProgramHeaders memory file.elfMemory).foldl ElfFile.process file)
      (TableRead memory file.elfMemory) := by
  have bound : phdrCount memory file.elfMemory < 256 ^ 2 := wordAt_lt ..
  obtain ⟨added, run, allowed⟩ := @elfProcessPheadersLoop_run memory file.elfMemory 65536 0
    file reads (Nat.zero_le _) (by omega)
  refine ⟨added, ?_, allowed⟩
  rw [elfProcessPheaders, Exec.bind_of_ok (Exec.run_read _ _), run, List.drop_zero]

end Process

end Peachos
