import Peachos.Fs.File

/-! # The ELF loader

`elfloader.c`. The image of a file is read through pointers into the memory of the machine, whose
addresses wrap at `2 ^ 32`: a field is read wherever its pointer leads. `elf_load` puts the image
into a heap block; `elfView` is the memory with that block in it.
-/

namespace Peachos

open CInt

abbrev ptLoad : Nat := 1
abbrev etExec : Nat := 2
abbrev eiClass : Nat := 4
abbrev eiData : Nat := 5
abbrev elfClassNone : Nat := 0
abbrev elfClass32 : Nat := 1
abbrev elfDataNone : Nat := 0
abbrev elfData2Lsb : Nat := 1

/-- The size of `struct elf_header`. -/
abbrev sizeofElfHeader : Nat := 52

/-- The size of `struct elf32_phdr`. -/
abbrev sizeofElf32Phdr : Nat := 32

/-- The size of `struct elf_file`. -/
abbrev sizeofElfFile : Nat := 132

def elfSignature : List UInt8 := [0x7f, 69, 76, 70]

/-- `struct elf_file` -/
structure ElfFile where
  elfMemory : Nat := 0
  virtualBaseAddress : Nat := 0
  virtualEndAddress : Nat := 0
  physicalBaseAddress : Nat := 0
  physicalEndAddress : Nat := 0
  deriving DecidableEq, Repr

/-- The memory that the loader reads, the file it fills in, and what it has read: the address and
the size. -/
structure ElfMachine where
  memory : Nat → UInt8
  file : ElfFile := {}
  reads : List (Nat × Nat) := []

/-- A program of the loader. -/
abbrev ElfM := Exec Fault ElfMachine

/-- The number in the `size` bytes at an address. -/
def wordAt (memory : Nat → UInt8) (address size : Nat) : Nat :=
  littleEndian ((List.range size).map fun offset : Nat => memory (u32 (address + offset)))

/-- Read a field of the ELF header. -/
def readHeader (header offset size : Nat) : ElfM Nat := do
  Exec.update fun machine =>
    { machine with reads := machine.reads ++ [(u32 (header + offset), size)] }
  Exec.read fun machine => wordAt machine.memory (header + offset) size

/-- Read a field of a program header, which counts as a read of the program header. -/
def readPhdr (phdr offset : Nat) : ElfM Nat := do
  Exec.update fun machine => { machine with reads := machine.reads ++ [(phdr, sizeofElf32Phdr)] }
  Exec.read fun machine => wordAt machine.memory (phdr + offset) 4

def eIdent (header index : Nat) : ElfM Nat := readHeader header index 1
def eType (header : Nat) : ElfM Nat := readHeader header 16 2
def eEntry (header : Nat) : ElfM Nat := readHeader header 24 4
def ePhoff (header : Nat) : ElfM Nat := readHeader header 28 4
def ePhnum (header : Nat) : ElfM Nat := readHeader header 44 2

def pType (phdr : Nat) : ElfM Nat := readPhdr phdr 0
def pOffset (phdr : Nat) : ElfM Nat := readPhdr phdr 4
def pVaddr (phdr : Nat) : ElfM Nat := readPhdr phdr 8
def pFilesz (phdr : Nat) : ElfM Nat := readPhdr phdr 16

/-- The loop of the `memcmp` of `elf_valid_signature` from byte `i` on: the bytes are equal. -/
def elfSignatureLoop (buffer : Nat) : (signature : List UInt8) → (i : Nat) → ElfM Bool
  | [], _ => pure true
  | byte :: signature, i => do
      let c ← eIdent buffer i
      if c ≠ byte.toNat then pure false else elfSignatureLoop buffer signature (i + 1)

def elfValidSignature (buffer : Nat) : ElfM Bool := elfSignatureLoop buffer elfSignature 0

/-- The byte at `index` of `e_ident` is one of two values. -/
def elfIdentIs (header index first second : Nat) : ElfM Bool := do
  let value ← eIdent header index
  if value = first then pure true
  else do
    let value ← eIdent header index
    pure (value == second)

def elfValidClass (header : Nat) : ElfM Bool :=
  elfIdentIs header eiClass elfClassNone elfClass32

def elfValidEncoding (header : Nat) : ElfM Bool :=
  elfIdentIs header eiData elfDataNone elfData2Lsb

def elfHasProgramHeader (header : Nat) : ElfM Bool := do
  let phoff ← ePhoff header
  pure (phoff != 0)

def elfIsExecutable (header : Nat) : ElfM Bool := do
  let type ← eType header
  if type = etExec then do
    let entry ← eEntry header
    pure (decide (peachosProgramVirtualAddress ≤ entry))
  else pure false

/-- The operator `&&`. -/
def elfAnd (first second : ElfM Bool) : ElfM Bool := do
  let holds ← first
  if holds then second else pure false

def elfValidateLoaded (header : Nat) : ElfM Int := do
  let valid ← elfAnd (elfValidSignature header) (elfAnd (elfValidClass header)
    (elfAnd (elfValidEncoding header) (elfAnd (elfHasProgramHeader header)
      (elfIsExecutable header))))
  pure (if valid then peachosAllOk else -einformat)

def elfPheader (header : Nat) : ElfM Nat := do
  let phoff ← ePhoff header
  if phoff = 0 then pure 0
  else do
    let phoff ← ePhoff header
    pure (u32 (header + phoff))

def elfProgramHeader (header index : Nat) : ElfM Nat := do
  let pheader ← elfPheader header
  pure (u32 (pheader + sizeofElf32Phdr * index))

/-- The first part of `elf_process_phdr_pt_load`. -/
def elfLowerBase (phdr : Nat) : ElfM Unit := do
  let file ← Exec.read ElfMachine.file
  let vaddr ← pVaddr phdr
  if file.virtualBaseAddress ≥ vaddr ∨ file.virtualBaseAddress = 0 then do
    let vaddr ← pVaddr phdr
    let offset ← pOffset phdr
    Exec.update fun machine => { machine with file := { machine.file with
      virtualBaseAddress := vaddr
      physicalBaseAddress := u32 (machine.file.elfMemory + offset) } }

/-- The second part of `elf_process_phdr_pt_load`. -/
def elfRaiseEnd (phdr : Nat) : ElfM Unit := do
  let vaddr ← pVaddr phdr
  let filesz ← pFilesz phdr
  let endVirtualAddress := u32 (vaddr + filesz)
  let file ← Exec.read ElfMachine.file
  if file.virtualEndAddress ≤ endVirtualAddress ∨ file.virtualEndAddress = 0 then do
    let offset ← pOffset phdr
    let filesz ← pFilesz phdr
    Exec.update fun machine => { machine with file := { machine.file with
      virtualEndAddress := endVirtualAddress
      physicalEndAddress := u32 (machine.file.elfMemory + offset + filesz) } }

def elfProcessPhdrPtLoad (phdr : Nat) : ElfM Int := do
  elfLowerBase phdr
  elfRaiseEnd phdr
  pure 0

def elfProcessPheader (phdr : Nat) : ElfM Int := do
  let type ← pType phdr
  if type = ptLoad then elfProcessPhdrPtLoad phdr else pure 0

/-- The loop of `elf_process_pheaders` from index `i` on. The number of program headers is a
16-bit field. -/
def elfProcessPheadersLoop (header : Nat) : (fuel i : Nat) → (res : Int) → ElfM Int
  | 0, _, _ => Exec.fault .diverges
  | fuel + 1, i, res => do
      let phnum ← ePhnum header
      if i < phnum then do
        let phdr ← elfProgramHeader header i
        let res ← elfProcessPheader phdr
        if res < 0 then pure res else elfProcessPheadersLoop header fuel (i + 1) res
      else pure res

def elfProcessPheaders : ElfM Int := do
  let file ← Exec.read ElfMachine.file
  elfProcessPheadersLoop file.elfMemory 65536 0 0

def elfProcessLoaded : ElfM Int := do
  let file ← Exec.read ElfMachine.file
  let res ← elfValidateLoaded file.elfMemory
  if res < 0 then pure res else elfProcessPheaders

/-- A loaded image: a block and the bytes of the file in it. -/
structure ElfImage where
  base : Nat
  content : List UInt8
  deriving DecidableEq, Repr

/-- The memory with an image in it: the byte at an address is the one at its offset from the image,
or one of the rest of the memory. -/
def elfView (memory : Nat → UInt8) (image : ElfImage) (address : Nat) : UInt8 :=
  image.content.getD (u32 ((address : Int) - image.base)) (memory address)

/-- What `elf_load` knows at its label `out`. -/
structure ElfOutcome where
  res : Int
  fd : Int := 0
  elfFile : Nat
  file : ElfFile := {}
  image : Option ElfImage := none
  reads : List (Nat × Nat) := []

/-- What `elf_load` knows once the image is in memory. -/
structure ElfLoaded where
  fd : Int
  elfFile : Nat
  image : ElfImage

section Reader

variable (read : StreamRead) (memory : Nat → UInt8)

/-- The part of `elf_load` that reads the file into memory. -/
def elfReadImage (filename : List UInt8) : K (Except ElfOutcome ElfLoaded) := do
  let elfFile ← kzalloc sizeofElfFile (.bytes (List.replicate sizeofElfFile 0))
  let fd ← fopen read filename [114]
  if fd ≤ 0 then pure (.error { res := -eio, elfFile := elfFile })
  else do
    let (res, stat) ← fstat fd {}
    if res < 0 then pure (.error { res := res, fd := fd, elfFile := elfFile })
    else do
      let elfMemory ← kzalloc stat.filesize (.bytes (List.replicate stat.filesize 0))
      -- `elf_memory` is stored in the structure, which has to be there.
      let _ ← load Obj.bytes? elfFile
      let res ← fread read elfMemory stat.filesize 1 fd
      if res < 0 then pure (.error {
        res := res
        fd := fd
        elfFile := elfFile
        file := { elfMemory := elfMemory } })
      else do
        let content ← load Obj.bytes? elfMemory
        pure (.ok { fd := fd, elfFile := elfFile, image := ⟨elfMemory, content⟩ })

/-- The part of `elf_load` that processes the image. -/
def elfLoadImage (loaded : ElfLoaded) : K ElfOutcome :=
  match elfProcessLoaded.run
      { memory := elfView memory loaded.image, file := { elfMemory := loaded.image.base } } with
  | .error reason => Exec.fault reason
  | .ok (res, machine) => pure {
      res := res
      fd := loaded.fd
      elfFile := loaded.elfFile
      file := machine.file
      image := some loaded.image
      reads := machine.reads }

/-- The part of `elf_load` before its label `out`. -/
def elfLoadOutcome (filename : List UInt8) : K ElfOutcome := do
  let stage ← elfReadImage read filename
  match stage with
  | .error outcome => pure outcome
  | .ok loaded => elfLoadImage memory loaded

end Reader

end Peachos
