import Peachos.Config

/-! # The structures of the kernel

The C structures that the modelled functions read and write, with the fields they use.
A pointer is its address, null is `0`. Integers of unsigned type are natural numbers,
integers of signed type are integers.
-/

namespace Peachos

/-- The little-endian value of a list of bytes. -/
def littleEndian (raw : List UInt8) : Nat :=
  raw.foldr (fun byte rest => byte.toNat + 256 * rest) 0

theorem littleEndian_lt (raw : List UInt8) : littleEndian raw < 256 ^ raw.length := by
  induction raw with
  | nil => exact Nat.one_pos
  | cons byte raw ih =>
      have small := byte.toNat_lt
      rw [List.length_cons, Nat.pow_succ]
      change byte.toNat + 256 * littleEndian raw < _
      omega

/-- A field of `size` bytes. -/
theorem littleEndian_take_lt (raw : List UInt8) (size : Nat) :
    littleEndian (raw.take size) < 256 ^ size :=
  lt_of_lt_of_le (littleEndian_lt _)
    (Nat.pow_le_pow_right (by decide) (List.length_take_le size raw))

/-- `struct registers`, in the order of its fields. -/
structure Registers where
  edi : Nat := 0
  esi : Nat := 0
  ebp : Nat := 0
  ebx : Nat := 0
  edx : Nat := 0
  ecx : Nat := 0
  eax : Nat := 0
  ip : Nat := 0
  cs : Nat := 0
  flags : Nat := 0
  esp : Nat := 0
  ss : Nat := 0
  deriving DecidableEq, Repr

/-- `struct task` -/
structure Task where
  pageDirectory : Nat := 0
  registers : Registers := {}
  process : Nat := 0
  next : Nat := 0
  prev : Nat := 0
  deriving DecidableEq, Repr

abbrev processFiletypeElf : Nat := 0
abbrev processFiletypeBinary : Nat := 1

/-- `struct process`; `ptr` stands for the union of `ptr` and `elf_file`. -/
structure Process where
  id : Nat := 0
  filename : List UInt8 := List.replicate peachosMaxPath 0
  task : Nat := 0
  filetype : Nat := 0
  ptr : Nat := 0
  stack : Nat := 0
  size : Nat := 0
  deriving DecidableEq, Repr

/-- The size of `struct process`. -/
abbrev sizeofProcess : Nat := 9364

/-- The value of a `struct disk *`: there is one disk. -/
inductive DiskPtr where
  | null
  | disk
  deriving DecidableEq, Repr

/-- The value of a `struct filesystem *`: FAT16 is the only one that is installed. -/
inductive Filesystem where
  | fat16
  deriving DecidableEq, Repr

/-- `struct disk_stream` -/
structure DiskStream where
  pos : Int := 0
  disk : DiskPtr := .null
  deriving DecidableEq, Repr

/-- `struct fat_header` followed by the `signature` of `struct fat_header_extended`. -/
structure FatHeader where
  sectorsPerCluster : Nat := 0
  reservedSectors : Nat := 0
  fatCopies : Nat := 0
  rootDirEntries : Nat := 0
  sectorsPerFat : Nat := 0
  sectorsBig : Nat := 0
  signature : Nat := 0
  deriving DecidableEq, Repr

/-- The bytes of a boot sector as a header, at the offsets of the packed structures. -/
def FatHeader.decode (raw : List UInt8) : FatHeader where
  sectorsPerCluster := littleEndian ((raw.drop 13).take 1)
  reservedSectors := littleEndian ((raw.drop 14).take 2)
  fatCopies := littleEndian ((raw.drop 16).take 1)
  rootDirEntries := littleEndian ((raw.drop 17).take 2)
  sectorsPerFat := littleEndian ((raw.drop 22).take 2)
  sectorsBig := littleEndian ((raw.drop 32).take 4)
  signature := littleEndian ((raw.drop 38).take 1)

/-- The size of `struct fat_h`. -/
abbrev sizeofFatH : Nat := 62

/-- `struct fat_directory_item` -/
structure FatDirectoryItem where
  filename : List UInt8
  ext : List UInt8
  attributes : UInt8
  high16BitsFirstCluster : Nat
  low16BitsFirstCluster : Nat
  filesize : Nat
  deriving DecidableEq, Repr

/-- Thirty-two bytes of a directory as an entry. -/
def FatDirectoryItem.decode (raw : List UInt8) : FatDirectoryItem where
  filename := raw.take 8
  ext := (raw.drop 8).take 3
  attributes := raw.getD 11 0
  high16BitsFirstCluster := littleEndian ((raw.drop 20).take 2)
  low16BitsFirstCluster := littleEndian ((raw.drop 26).take 2)
  filesize := littleEndian ((raw.drop 28).take 4)

/-- The size of `struct fat_directory_item`. -/
abbrev sizeofFatDirectoryItem : Nat := 32

/-- `struct fat_directory` -/
structure FatDirectory where
  item : Nat := 0
  total : Int := 0
  sectorPos : Int := 0
  endingSectorPos : Int := 0
  deriving DecidableEq, Repr

abbrev fatItemTypeDirectory : Nat := 0
abbrev fatItemTypeFile : Nat := 1

/-- `struct fat_item`; `pointer` is the union of `item` and `directory`. -/
structure FatItem where
  pointer : Nat := 0
  type : Nat := 0
  deriving DecidableEq, Repr

/-- `struct fat_file_descriptor` -/
structure FatFileDescriptor where
  item : Nat := 0
  pos : Nat := 0
  deriving DecidableEq, Repr

/-- `struct fat_private` -/
structure FatPrivate where
  header : FatHeader := {}
  rootDirectory : FatDirectory := {}
  clusterReadStream : Nat := 0
  fatReadStream : Nat := 0
  directoryStream : Nat := 0
  deriving DecidableEq, Repr

/-- `struct file_descriptor` -/
structure FileDescriptor where
  index : Int := 0
  filesystem : Option Filesystem := none
  privateData : Nat := 0
  disk : DiskPtr := .null
  deriving DecidableEq, Repr

/-- `struct path_root` -/
structure PathRoot where
  driveNo : Int := 0
  first : Nat := 0
  deriving DecidableEq, Repr

/-- `struct path_part` -/
structure PathPart where
  part : Nat := 0
  next : Nat := 0
  deriving DecidableEq, Repr

/-- `struct disk` -/
structure Disk where
  sectorSize : Int := peachosSectorSize
  id : Int := 0
  filesystem : Option Filesystem := none
  fsPrivate : Nat := 0
  deriving DecidableEq, Repr

/-- The contents of a live block of the kernel heap. `dwords` is an array of 1024
`uint32_t`, a page directory or a page table; `bytes` is an untyped buffer. -/
inductive Obj where
  | task (value : Task)
  | process (value : Process)
  | chunk (directoryEntry : Nat)
  | dwords (entries : Nat → Nat)
  | bytes (contents : List UInt8)
  | diskStream (value : DiskStream)
  | fatPrivate (value : FatPrivate)
  | fatDirectory (value : FatDirectory)
  | fatItem (value : FatItem)
  | fatFileDescriptor (value : FatFileDescriptor)
  | fileDescriptor (value : FileDescriptor)
  | pathRoot (value : PathRoot)
  | pathPart (value : PathPart)

namespace Obj

def task? : Obj → Option Task
  | task value => some value
  | _ => none

def process? : Obj → Option Process
  | process value => some value
  | _ => none

def chunk? : Obj → Option Nat
  | chunk directoryEntry => some directoryEntry
  | _ => none

def dwords? : Obj → Option (Nat → Nat)
  | dwords entries => some entries
  | _ => none

def bytes? : Obj → Option (List UInt8)
  | bytes contents => some contents
  | _ => none

def diskStream? : Obj → Option DiskStream
  | diskStream value => some value
  | _ => none

def fatPrivate? : Obj → Option FatPrivate
  | fatPrivate value => some value
  | _ => none

def fatDirectory? : Obj → Option FatDirectory
  | fatDirectory value => some value
  | _ => none

def fatItem? : Obj → Option FatItem
  | fatItem value => some value
  | _ => none

def fatFileDescriptor? : Obj → Option FatFileDescriptor
  | fatFileDescriptor value => some value
  | _ => none

def fileDescriptor? : Obj → Option FileDescriptor
  | fileDescriptor value => some value
  | _ => none

def pathRoot? : Obj → Option PathRoot
  | pathRoot value => some value
  | _ => none

def pathPart? : Obj → Option PathPart
  | pathPart value => some value
  | _ => none

end Obj

end Peachos
