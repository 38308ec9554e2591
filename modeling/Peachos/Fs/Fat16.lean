import Peachos.Disk.Streamer
import Peachos.Fs.PathParser

/-! # FAT16

`fat16.c`. The functions take the stream reader as a parameter `read`; the kernel's is
`diskstreamerRead`. Memory that a function fills is given by the bytes that are written
to it in order, or, for a heap buffer, written to its object.
-/

namespace Peachos

open CInt

abbrev peachosFat16BadSector : Int := 0xFF7
abbrev fatFileReadOnly : UInt8 := 0x01
abbrev fatFileSubdirectory : UInt8 := 0x10
abbrev fileStatReadOnly : Nat := 1

abbrev fileModeRead : Nat := 0
abbrev fileModeWrite : Nat := 1
abbrev fileModeAppend : Nat := 2
abbrev fileModeInvalid : Nat := 3

abbrev seekSet : Nat := 0
abbrev seekCur : Nat := 1
abbrev seekEnd : Nat := 2

/-- `struct file_stat` -/
structure FileStat where
  flags : Nat := 0
  filesize : Nat := 0
  deriving DecidableEq, Repr

/-- A reader of streams: the return value and the bytes written to the output. -/
abbrev StreamRead := Nat → Int → K (Int × List UInt8)

/-- Division of `int`. -/
def divide (dividend divisor : Int) : K Int :=
  if divisor = 0 then Exec.fault .divideByZero else pure (dividend.tdiv divisor)

/-- Remainder of `int`. -/
def remainder (dividend divisor : Int) : K Int :=
  if divisor = 0 then Exec.fault .divideByZero else pure (dividend.tmod divisor)

/-- The structure that `disk->fs_private` points to. -/
def loadPrivate : K FatPrivate := do
  let disk ← Exec.read Kernel.disk
  load Obj.fatPrivate? disk.fsPrivate

def fat16InitPrivate (fatPrivate : Nat) : K Unit := do
  let disk ← Exec.read Kernel.disk
  store fatPrivate (.fatPrivate {})
  let clusterReadStream ← diskstreamerNew disk.id
  let value ← load Obj.fatPrivate? fatPrivate
  store fatPrivate (.fatPrivate { value with clusterReadStream := clusterReadStream })
  let fatReadStream ← diskstreamerNew disk.id
  let value ← load Obj.fatPrivate? fatPrivate
  store fatPrivate (.fatPrivate { value with fatReadStream := fatReadStream })
  let directoryStream ← diskstreamerNew disk.id
  let value ← load Obj.fatPrivate? fatPrivate
  store fatPrivate (.fatPrivate { value with directoryStream := directoryStream })

def fat16SectorToAbsolute (disk : Disk) (sector : Int) : Int := i32 (sector * disk.sectorSize)

section Reader

variable (read : StreamRead)

/-- The loop of `fat16_get_total_items_for_directory`. Its stream moves by 32 bytes at a
time, which it can do less than `2 ^ 26 + 2` times. -/
def fat16GetTotalItemsLoop (stream : Nat) : (fuel : Nat) → (i : Int) → K Int
  | 0, _ => Exec.fault .diverges
  | fuel + 1, i => do
      let (res, item) ← read stream sizeofFatDirectoryItem
      if res ≠ peachosAllOk then pure (-eio)
      else if item.getD 0 0 = 0x00 then pure i
      else if item.getD 0 0 = 0xE5 then fat16GetTotalItemsLoop stream fuel i
      else fat16GetTotalItemsLoop stream fuel (i32 (i + 1))

def fat16GetTotalItemsForDirectory (directoryStartSector : Nat) : K Int := do
  let fatPrivate ← loadPrivate
  let disk ← Exec.read Kernel.disk
  let directoryStartPos := i32 (u32 (directoryStartSector * disk.sectorSize))
  let stream := fatPrivate.directoryStream
  let res ← diskstreamerSeek stream directoryStartPos
  if res ≠ peachosAllOk then pure (-eio)
  else fat16GetTotalItemsLoop read stream 67108866 0

/-- `fat16_get_root_directory`, for the `root_directory` of the private structure. -/
def fat16GetRootDirectory (fatPrivate : Nat) : K Int := do
  let value ← load Obj.fatPrivate? fatPrivate
  let disk ← Exec.read Kernel.disk
  let header := value.header
  let rootDirSectorPos : Int := header.fatCopies * header.sectorsPerFat + header.reservedSectors
  let rootDirSize : Int := header.rootDirEntries * sizeofFatDirectoryItem
  let sectors ← divide rootDirSize disk.sectorSize
  let rest ← remainder rootDirSize disk.sectorSize
  let totalSectors := if rest ≠ 0 then sectors + 1 else sectors
  let totalItems ← fat16GetTotalItemsForDirectory read (u32 rootDirSectorPos)
  let dir ← kzalloc rootDirSize.toNat (.bytes (List.replicate rootDirSize.toNat 0))
  if dir = 0 then pure (-enomem)
  else do
    let stream := value.directoryStream
    let res ← diskstreamerSeek stream (fat16SectorToAbsolute disk rootDirSectorPos)
    if res ≠ peachosAllOk then do
      kfree dir
      pure (-eio)
    else do
      let (res, out) ← read stream rootDirSize
      writeBytes dir 0 out
      if res ≠ peachosAllOk then do
        kfree dir
        pure (-eio)
      else do
        let value ← load Obj.fatPrivate? fatPrivate
        store fatPrivate (.fatPrivate { value with
          rootDirectory := {
            item := dir
            total := totalItems
            sectorPos := rootDirSectorPos
            endingSectorPos := rootDirSectorPos + totalSectors } })
        pure 0

/-- The size of `struct fat_private`. -/
abbrev sizeofFatPrivate : Nat := 92

/-- The part of `fat16_resolve` between the opening of its stream and the closing. -/
def fat16ResolveHeader (fatPrivate stream : Nat) : K Int := do
  let (res, raw) ← read stream sizeofFatH
  let value ← load Obj.fatPrivate? fatPrivate
  store fatPrivate (.fatPrivate { value with header := FatHeader.decode raw })
  if res ≠ peachosAllOk then pure (-eio)
  else if (FatHeader.decode raw).signature ≠ 0x29 then pure (-efsnotus)
  else do
    let res ← fat16GetRootDirectory read fatPrivate
    if res ≠ peachosAllOk then pure (-eio) else pure 0

def fat16Resolve : K Int := do
  let fatPrivate ← kzalloc sizeofFatPrivate (.fatPrivate {})
  fat16InitPrivate fatPrivate
  Exec.update fun kernel => { kernel with
    disk := { kernel.disk with fsPrivate := fatPrivate, filesystem := some .fat16 } }
  let disk ← Exec.read Kernel.disk
  let stream ← diskstreamerNew disk.id
  let res ← (do
    if stream = 0 then pure (-enomem)
    else do
      let res ← fat16ResolveHeader read fatPrivate stream
      diskstreamerClose stream
      pure res : K Int)
  if res < 0 then do
    kfree fatPrivate
    Exec.update fun kernel => { kernel with disk := { kernel.disk with fsPrivate := 0 } }
    pure res
  else pure res

end Reader

/-- `fat16_to_proper_string`: the characters before the terminator it writes. -/
def fat16ToProperString (text : List UInt8) : List UInt8 :=
  text.takeWhile fun character => character ≠ 0x00 ∧ character ≠ 0x20

def fat16GetFullRelativeFilename (item : FatDirectoryItem) : List UInt8 :=
  let out := fat16ToProperString item.filename
  let first := item.ext.headD 0
  if first ≠ 0x00 ∧ first ≠ 0x20 then out ++ 46 :: fat16ToProperString item.ext else out

/-- `fat16_clone_directory_item`, for the bytes of the item. -/
def fat16CloneDirectoryItem (item : List UInt8) (size : Nat) : K Nat :=
  if size < sizeofFatDirectoryItem then pure 0
  else do
    let itemCopy ← kzalloc size (.bytes (List.replicate size 0))
    if itemCopy = 0 then pure 0
    else do
      writeBytes itemCopy 0 (item.take size)
      pure itemCopy

def fat16GetFirstCluster (item : FatDirectoryItem) : Nat :=
  (item.high16BitsFirstCluster <<< 16) ||| item.low16BitsFirstCluster

def fat16ClusterToSector (fatPrivate : FatPrivate) (cluster : Int) : Int :=
  i32 (fatPrivate.rootDirectory.endingSectorPos +
    i32 (i32 (cluster - 2) * fatPrivate.header.sectorsPerCluster))

def fat16GetFirstFatSector (fatPrivate : FatPrivate) : Nat := fatPrivate.header.reservedSectors

section Reader

variable (read : StreamRead)

def fat16GetFatEntry (cluster : Int) : K Int := do
  let fatPrivate ← loadPrivate
  let disk ← Exec.read Kernel.disk
  let stream := fatPrivate.fatReadStream
  if stream = 0 then pure (-1)
  else do
    let fatTablePosition := u32 (fat16GetFirstFatSector fatPrivate * disk.sectorSize)
    let res ← diskstreamerSeek stream (i32 (u32 (fatTablePosition + i32 (cluster * 2))))
    if res < 0 then pure res
    else do
      let (res, result) ← read stream 2
      if res < 0 then pure res else pure (littleEndian result)

/-- The tests that the loop of `fat16_get_cluster_for_offset` makes on an entry. -/
def fat16EntryRejected (entry : Int) : Bool :=
  entry = 0xFFF8 ∨ entry = 0xFFFF ∨ entry = peachosFat16BadSector ∨
    entry = 0xFF0 ∨ entry = 0xFF6 ∨ entry = 0x00

/-- The loop of `fat16_get_cluster_for_offset`. -/
def fat16GetClusterLoop : (clustersAhead : Nat) → (clusterToUse : Int) → K Int
  | 0, clusterToUse => pure clusterToUse
  | clustersAhead + 1, clusterToUse => do
      let entry ← fat16GetFatEntry read clusterToUse
      if fat16EntryRejected entry then pure (-eio)
      else fat16GetClusterLoop clustersAhead entry

/-- `size_of_cluster_bytes` -/
def sizeOfClusterBytes (fatPrivate : FatPrivate) (disk : Disk) : Int :=
  i32 (fatPrivate.header.sectorsPerCluster * disk.sectorSize)

def fat16GetClusterForOffset (startingCluster offset : Int) : K Int := do
  let fatPrivate ← loadPrivate
  let disk ← Exec.read Kernel.disk
  let clustersAhead ← divide offset (sizeOfClusterBytes fatPrivate disk)
  fat16GetClusterLoop read clustersAhead.toNat startingCluster

/-- The recursion of `fat16_read_internal_from_stream`, which takes one call for each
cluster's worth. -/
def fat16ReadInternalCalls (stream : Nat) (cluster : Int) :
    (calls : Nat) → (offset total : Int) → K (Int × List UInt8)
  | 0, _, _ => Exec.fault .diverges
  | calls + 1, offset, total => do
      let fatPrivate ← loadPrivate
      let disk ← Exec.read Kernel.disk
      let clusterBytes := sizeOfClusterBytes fatPrivate disk
      let clusterToUse ← fat16GetClusterForOffset read cluster offset
      if clusterToUse < 0 then pure (clusterToUse, [])
      else do
        let offsetFromCluster ← remainder offset clusterBytes
        let startingSector := fat16ClusterToSector fatPrivate clusterToUse
        let startingPos := i32 (i32 (startingSector * disk.sectorSize) + offsetFromCluster)
        let totalToRead := if total > clusterBytes then clusterBytes else total
        let res ← diskstreamerSeek stream startingPos
        if res ≠ peachosAllOk then pure (res, [])
        else do
          let (res, out) ← read stream totalToRead
          if res ≠ peachosAllOk then pure (res, out)
          else if total - totalToRead > 0 then do
            let (res, rest) ← fat16ReadInternalCalls stream cluster calls
              (i32 (offset + totalToRead)) (total - totalToRead)
            pure (res, out ++ rest)
          else pure (res, out)

def fat16ReadInternalFromStream (stream : Nat) (cluster offset total : Int) :
    K (Int × List UInt8) :=
  fat16ReadInternalCalls read stream cluster (total.toNat + 1) offset total

def fat16ReadInternal (startingCluster offset total : Int) : K (Int × List UInt8) := do
  let fsPrivate ← loadPrivate
  fat16ReadInternalFromStream read fsPrivate.clusterReadStream startingCluster offset total

end Reader

def fat16FreeDirectory (directory : Nat) : K Unit :=
  if directory = 0 then pure ()
  else do
    let value ← load Obj.fatDirectory? directory
    if value.item ≠ 0 then do
      kfree value.item
      kfree directory
    else kfree directory

def fat16FatItemFree (item : Nat) : K Unit := do
  let value ← load Obj.fatItem? item
  if value.type = fatItemTypeDirectory then do
    fat16FreeDirectory value.pointer
    kfree item
  else if value.type = fatItemTypeFile then do
    kfree value.pointer
    kfree item
  else kfree item

/-- The size of `struct fat_directory`. -/
abbrev sizeofFatDirectory : Nat := 16

/-- The size of `struct fat_item` and of `struct fat_file_descriptor`. -/
abbrev sizeofFatItem : Nat := 8

section Reader

variable (read : StreamRead)

/-- The part of `fat16_load_fat_directory` after the allocation of the structure. -/
def fat16FillDirectory (directory : Nat) (item : FatDirectoryItem) : K Int := do
  let fatPrivate ← loadPrivate
  let cluster := i32 (fat16GetFirstCluster item)
  let clusterSector := fat16ClusterToSector fatPrivate cluster
  let totalItems ← fat16GetTotalItemsForDirectory read (u32 clusterSector)
  let value ← load Obj.fatDirectory? directory
  store directory (.fatDirectory { value with total := totalItems })
  let directorySize := i32 (u32 (totalItems * sizeofFatDirectoryItem))
  let buffer ← kzalloc (u32 directorySize) (.bytes (List.replicate (u32 directorySize) 0))
  let value ← load Obj.fatDirectory? directory
  store directory (.fatDirectory { value with item := buffer })
  if buffer = 0 then pure (-enomem)
  else do
    let (res, out) ← fat16ReadInternal read cluster 0 directorySize
    writeBytes buffer 0 out
    pure res

/-- `fat16_load_fat_directory`, which also returns the structure it has freed. -/
def fat16LoadFatDirectory (item : FatDirectoryItem) : K Nat :=
  if item.attributes &&& fatFileSubdirectory = 0 then do
    fat16FreeDirectory 0
    pure 0
  else do
    let directory ← kzalloc sizeofFatDirectory (.fatDirectory {})
    if directory = 0 then do
      fat16FreeDirectory 0
      pure 0
    else do
      let res ← fat16FillDirectory read directory item
      if res ≠ peachosAllOk then do
        fat16FreeDirectory directory
        pure directory
      else pure directory

/-- `fat16_new_fat_item_for_directory_item`, for the bytes of the item. -/
def fat16NewFatItemForDirectoryItem (item : List UInt8) : K Nat := do
  let fItem ← kzalloc sizeofFatItem (.fatItem {})
  if fItem = 0 then pure 0
  else if (FatDirectoryItem.decode item).attributes &&& fatFileSubdirectory ≠ 0 then do
    let directory ← fat16LoadFatDirectory read (FatDirectoryItem.decode item)
    let value ← load Obj.fatItem? fItem
    store fItem (.fatItem { value with pointer := directory, type := fatItemTypeDirectory })
    pure fItem
  else do
    let value ← load Obj.fatItem? fItem
    store fItem (.fatItem { value with type := fatItemTypeFile })
    let copy ← fat16CloneDirectoryItem item sizeofFatDirectoryItem
    let value ← load Obj.fatItem? fItem
    store fItem (.fatItem { value with pointer := copy })
    pure fItem

/-- The bytes of `directory->item[i]`. -/
def loadDirectoryItem (items i : Nat) : K (List UInt8) := do
  let contents ← load Obj.bytes? items
  if sizeofFatDirectoryItem * (i + 1) ≤ contents.length then
    pure ((contents.drop (sizeofFatDirectoryItem * i)).take sizeofFatDirectoryItem)
  else Exec.fault (.bufferIndex (sizeofFatDirectoryItem * i))

/-- The loop of `fat16_find_item_in_directory` from index `i` on. -/
def fat16FindItemLoop (directory : FatDirectory) (name : List UInt8) :
    (count i fItem : Nat) → K Nat
  | 0, _, fItem => pure fItem
  | count + 1, i, fItem => do
      let item ← loadDirectoryItem directory.item i
      let tmpFilename := fat16GetFullRelativeFilename (FatDirectoryItem.decode item)
      if istrncmp tmpFilename name peachosMaxPath = 0 then do
        let fItem ← fat16NewFatItemForDirectoryItem read item
        fat16FindItemLoop directory name count (i + 1) fItem
      else fat16FindItemLoop directory name count (i + 1) fItem

def fat16FindItemInDirectory (directory : FatDirectory) (name : List UInt8) : K Nat :=
  fat16FindItemLoop read directory name directory.total.toNat 0 0

/-- The loop of `fat16_get_directory_entry`. -/
def fat16GetDirectoryEntryLoop : (fuel : Nat) → (currentItem nextPart : Nat) → K Nat
  | 0, _, _ => Exec.fault .diverges
  | fuel + 1, currentItem, nextPart =>
      if nextPart = 0 then pure currentItem
      else do
        let current ← load Obj.fatItem? currentItem
        if current.type ≠ fatItemTypeDirectory then pure 0
        else do
          let directory ← load Obj.fatDirectory? current.pointer
          let part ← load Obj.pathPart? nextPart
          let name ← load Obj.bytes? part.part
          let tmpItem ← fat16FindItemInDirectory read directory name
          fat16FatItemFree currentItem
          fat16GetDirectoryEntryLoop fuel tmpItem part.next

/-- The parts of a path lie in different blocks of the heap, so the loop takes fewer turns than the
heap has blocks. -/
def fat16GetDirectoryEntry (path : Nat) : K Nat := do
  let fatPrivate ← loadPrivate
  let part ← load Obj.pathPart? path
  let name ← load Obj.bytes? part.part
  let rootItem ← fat16FindItemInDirectory read fatPrivate.rootDirectory name
  if rootItem = 0 then pure 0
  else do
    let heap ← Exec.read Kernel.heap
    fat16GetDirectoryEntryLoop read (heap.table.total + 1) rootItem part.next

/-- `ERROR` -/
def errorPointer (code : Int) : Nat := u32 code

/-- `ISERR` -/
def isErr (value : Nat) : Bool := i32 value < 0

def fat16Open (path mode : Nat) : K Nat :=
  if mode ≠ fileModeRead then pure (errorPointer (-erdonly))
  else do
    let descriptor ← kzalloc sizeofFatItem (.fatFileDescriptor {})
    if descriptor = 0 then pure (errorPointer (-enomem))
    else do
      let item ← fat16GetDirectoryEntry read path
      let value ← load Obj.fatFileDescriptor? descriptor
      store descriptor (.fatFileDescriptor { value with item := item })
      if item = 0 then do
        kfree descriptor
        pure (errorPointer (-eio))
      else do
        let value ← load Obj.fatFileDescriptor? descriptor
        store descriptor (.fatFileDescriptor { value with pos := 0 })
        pure descriptor

end Reader

def fat16FreeFileDescriptor (desc : Nat) : K Unit := do
  let value ← load Obj.fatFileDescriptor? desc
  fat16FatItemFree value.item
  kfree desc

def fat16Close (descriptor : Nat) : K Int := do
  fat16FreeFileDescriptor descriptor
  pure 0

/-- `fat16_stat`: the result and the contents of `stat` after it. -/
def fat16Stat (descriptor : Nat) (stat : FileStat) : K (Int × FileStat) := do
  let value ← load Obj.fatFileDescriptor? descriptor
  let descItem ← load Obj.fatItem? value.item
  if descItem.type ≠ fatItemTypeFile then pure (-einvagr, stat)
  else do
    let raw ← load Obj.bytes? descItem.pointer
    let ritem := FatDirectoryItem.decode raw
    let flags := if ritem.attributes &&& fatFileReadOnly ≠ 0 then fileStatReadOnly else 0
    pure (0, { flags := flags, filesize := ritem.filesize })

def fat16Seek (descriptor offset seekMode : Nat) : K Int := do
  let desc ← load Obj.fatFileDescriptor? descriptor
  let descItem ← load Obj.fatItem? desc.item
  if descItem.type ≠ fatItemTypeFile then pure (-einvagr)
  else do
    let raw ← load Obj.bytes? descItem.pointer
    if offset ≥ (FatDirectoryItem.decode raw).filesize then pure (-eio)
    else if seekMode = seekSet then do
      store descriptor (.fatFileDescriptor { desc with pos := offset })
      pure 0
    else if seekMode = seekEnd then pure (-eunimp)
    else if seekMode = seekCur then do
      store descriptor (.fatFileDescriptor { desc with pos := u32 (desc.pos + offset) })
      pure 0
    else pure (-einvagr)

section Reader

variable (read : StreamRead)

/-- The loop of `fat16_read`, writing to the buffer `out` from `outOffset` on: the result
when a read fails, and the last offset when none does. The first cluster is looked up in the
directory entry at `item` for each element. -/
def fat16ReadLoop (item size out : Nat) :
    (count : Nat) → (offset : Int) → (outOffset : Nat) → K (Except Int Int)
  | 0, offset, _ => pure (.ok offset)
  | count + 1, offset, outOffset => do
      let entry ← load Obj.bytes? item
      let cluster := fat16GetFirstCluster (FatDirectoryItem.decode entry)
      let (res, raw) ← fat16ReadInternal read (i32 cluster) offset (i32 size)
      writeBytes out outOffset raw
      if res < 0 then pure (.error res)
      else fat16ReadLoop item size out count (i32 (offset + size)) (outOffset + size)

def fat16Read (descriptor size nmemb out : Nat) : K Int := do
  let fatDesc ← load Obj.fatFileDescriptor? descriptor
  let descItem ← load Obj.fatItem? fatDesc.item
  let offset := i32 fatDesc.pos
  let outcome ← fat16ReadLoop read descItem.pointer size out nmemb offset 0
  match outcome with
  | .error res => pure res
  | .ok offset => do
      let fatDesc ← load Obj.fatFileDescriptor? descriptor
      store descriptor (.fatFileDescriptor { fatDesc with pos := u32 offset })
      pure (i32 nmemb)

end Reader

end Peachos
