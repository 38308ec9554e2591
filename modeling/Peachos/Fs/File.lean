import Peachos.Fs.Fat16

/-! # Open files

`file.c`. The table of file descriptors, and the calls that go to the filesystem of the
disk through them. A `FILE` number is the index of its descriptor in the table plus one.
-/

namespace Peachos

open CInt

/-- The size of `struct file_descriptor`. -/
abbrev sizeofFileDescriptor : Nat := 16

/-- Read `file_descriptors[index]`. -/
def readFileDescriptors (index : Int) : K Nat :=
  Exec.demand (.bufferIndex index) fun kernel =>
    if 0 ≤ index then kernel.fileDescriptors[index.toNat]? else none

/-- Write `file_descriptors[index]`. -/
def writeFileDescriptors (index : Int) (desc : Nat) : K Unit := Exec.of fun kernel =>
  if 0 ≤ index ∧ index.toNat < kernel.fileDescriptors.length then
    .ok ((), { kernel with fileDescriptors := kernel.fileDescriptors.set index.toNat desc })
  else .error (.bufferIndex index)

/-- The loop of `file_new_descriptor` from index `i` on: the result and `*desc_out`. -/
def fileNewDescriptorLoop : (count i : Nat) → K (Int × Nat)
  | 0, _ => pure (-enomem, 0)
  | count + 1, i => do
      let slot ← readFileDescriptors i
      if slot = 0 then do
        let desc ← kmalloc sizeofFileDescriptor (.fileDescriptor {})
        let value ← load Obj.fileDescriptor? desc
        store desc (.fileDescriptor { value with index := i + 1 })
        writeFileDescriptors i desc
        pure (0, desc)
      else fileNewDescriptorLoop count (i + 1)

def fileNewDescriptor : K (Int × Nat) := fileNewDescriptorLoop peachosMaxFileDescriptors 0

def fileFreeDescriptor (desc : Nat) : K Unit := do
  let value ← load Obj.fileDescriptor? desc
  writeFileDescriptors (value.index - 1) 0
  kfree desc

def fileGetDescriptor (fd : Int) : K Nat :=
  if fd < 0 ∨ fd ≥ peachosMaxFileDescriptors then pure 0 else readFileDescriptors (fd - 1)

def fileGetModeByString (str : List UInt8) : Nat :=
  if strncmp str [114] 1 = 0 then fileModeRead
  else if strncmp str [119] 1 = 0 then fileModeWrite
  else if strncmp str [97] 1 = 0 then fileModeAppend
  else fileModeInvalid

/-- The filesystem that a pointer `desc->filesystem` or `disk->filesystem` names. -/
def theFilesystem (filesystem : Option Filesystem) : K Filesystem :=
  Exec.demand (.badPointer 0) fun _ => filesystem

/-- A disk that a filesystem follows the pointer to. -/
def theDisk (disk : DiskPtr) : K Unit :=
  if disk = .disk then pure () else Exec.fault (.badPointer 0)

def fstat (fd : Int) (stat : FileStat) : K (Int × FileStat) := do
  let desc ← fileGetDescriptor fd
  if desc = 0 then pure (-eio, stat)
  else do
    let value ← load Obj.fileDescriptor? desc
    let .fat16 ← theFilesystem value.filesystem
    fat16Stat value.privateData stat

/-- What `fopen` knows at its label `out`. -/
structure OpenOutcome where
  res : Int
  rootPath : Nat := 0
  disk : DiskPtr := .null
  descriptorPrivateData : Nat := 0
  desc : Nat := 0

section Reader

variable (read : StreamRead)

/-- The part of `fopen` after the path has a first part and its disk a filesystem. -/
def fopenOnDisk (rootPath first : Nat) (modeStr : List UInt8) : K OpenOutcome :=
  let mode := fileGetModeByString modeStr
  if mode = fileModeInvalid then pure { res := -einvagr, rootPath := rootPath, disk := .disk }
  else do
    let descriptorPrivateData ← fat16Open read first mode
    if isErr descriptorPrivateData then pure {
      res := i32 descriptorPrivateData
      rootPath := rootPath
      disk := .disk
      descriptorPrivateData := descriptorPrivateData }
    else do
      let (res, desc) ← fileNewDescriptor
      if res < 0 then pure {
        res := res
        rootPath := rootPath
        disk := .disk
        descriptorPrivateData := descriptorPrivateData
        desc := desc }
      else do
        let disk ← Exec.read Kernel.disk
        let value ← load Obj.fileDescriptor? desc
        store desc (.fileDescriptor { value with
          filesystem := disk.filesystem
          privateData := descriptorPrivateData
          disk := .disk })
        pure {
          res := value.index
          rootPath := rootPath
          disk := .disk
          descriptorPrivateData := descriptorPrivateData
          desc := desc }

/-- The part of `fopen` before its label `out`. -/
def fopenOutcome (filename modeStr : List UInt8) : K OpenOutcome := do
  let rootPath ← pathparserParse filename
  if rootPath = 0 then pure { res := -einvagr }
  else do
    let root ← load Obj.pathRoot? rootPath
    if root.first = 0 then pure { res := -einvagr, rootPath := rootPath }
    else if diskGet root.driveNo = .null then pure { res := -eio, rootPath := rootPath }
    else do
      let disk ← Exec.read Kernel.disk
      if disk.filesystem = none then pure { res := -eio, rootPath := rootPath, disk := .disk }
      else fopenOnDisk read rootPath root.first modeStr

/-- The part of `fopen` at its label `out`, for a negative result. -/
def fopenCleanUp (outcome : OpenOutcome) : K Int := do
  if outcome.rootPath ≠ 0 then pathparserFree outcome.rootPath
  if outcome.disk ≠ .null ∧ outcome.descriptorPrivateData ≠ 0 then do
    let _ ← fat16Close outcome.descriptorPrivateData
  if outcome.desc ≠ 0 then fileFreeDescriptor outcome.desc
  pure 0

def fopen (filename modeStr : List UInt8) : K Int := do
  let outcome ← fopenOutcome read filename modeStr
  if outcome.res < 0 then fopenCleanUp outcome else pure outcome.res

end Reader

def fseek (fd offset : Int) (whence : Nat) : K Int := do
  let desc ← fileGetDescriptor fd
  if desc = 0 then pure (-eio)
  else do
    let value ← load Obj.fileDescriptor? desc
    let .fat16 ← theFilesystem value.filesystem
    fat16Seek value.privateData (u32 offset) whence

def fclose (fd : Int) : K Int := do
  let desc ← fileGetDescriptor fd
  if desc = 0 then pure (-eio)
  else do
    let value ← load Obj.fileDescriptor? desc
    let .fat16 ← theFilesystem value.filesystem
    let res ← fat16Close value.privateData
    if res = peachosAllOk then do
      fileFreeDescriptor desc
      pure res
    else pure res

def fread (read : StreamRead) (ptr size nmemb : Nat) (fd : Int) : K Int :=
  if size = 0 ∨ nmemb = 0 ∨ fd < 1 then pure (-einvagr)
  else do
    let desc ← fileGetDescriptor fd
    if desc = 0 then pure (-einvagr)
    else do
      let value ← load Obj.fileDescriptor? desc
      let .fat16 ← theFilesystem value.filesystem
      theDisk value.disk
      fat16Read read value.privateData size nmemb ptr

end Peachos
