import Peachos.Fs.File
import Peachos.Task.Task

/-! # Processes

`process.c`. The table `processes` has a slot for each process; its index is the `id` of the
process. Loading an ELF file, freeing a process and mapping an ELF file are stubs in the
source.
-/

namespace Peachos

open CInt

def processInit (process : Nat) : K Unit := store process (.process {})

def processGet (processId : Int) : K Nat :=
  if processId < 0 ∨ processId ≥ peachosMaxProcesses then pure 0
  else Exec.demand (.bufferIndex processId) fun kernel => kernel.processes[processId.toNat]?

def processSwitch (process : Nat) : K Int := do
  Exec.update fun kernel => { kernel with currentProcess := process }
  pure 0

/-- The loop of `process_switch_to_any` from index `i` on. -/
def processSwitchToAnyLoop : (count i : Nat) → K Unit
  | 0, _ => pure ()
  | count + 1, i => do
      let process ← Exec.demand (.bufferIndex i) fun kernel => kernel.processes[i]?
      if process ≠ 0 then do
        let _ ← processSwitch process
      else processSwitchToAnyLoop count (i + 1)

def processSwitchToAny : K Unit := processSwitchToAnyLoop peachosMaxProcesses 0

/-- Write `processes[index]`. -/
def writeProcesses (index process : Nat) : K Unit := Exec.of fun kernel =>
  if index < kernel.processes.length then
    .ok ((), { kernel with processes := kernel.processes.set index process })
  else .error (.bufferIndex index)

def processUnlink (process : Nat) : K Unit := do
  let value ← load Obj.process? process
  writeProcesses value.id 0
  let current ← Exec.read Kernel.currentProcess
  if current = process then processSwitchToAny

/-- `process_free_process`, which the source leaves empty. -/
def processFreeProcess (_process : Nat) : K Int := pure 1

def processTerminate (process : Nat) : K Int := do
  processUnlink process
  processFreeProcess process

section Reader

variable (read : StreamRead)

/-- The part of `process_load_binary` before its label `out`: the result and
`program_data_ptr`. -/
def processLoadBinaryData (fd : Int) (process : Nat) : K (Int × Nat) := do
  if fd = 0 then pure (-eio, 0)
  else do
    let (res, stat) ← fstat fd {}
    if res ≠ peachosAllOk then pure (res, 0)
    else do
      let programDataPtr ← kzalloc stat.filesize (.bytes (List.replicate stat.filesize 0))
      if programDataPtr = 0 then pure (-enomem, 0)
      else do
        let count ← fread read programDataPtr stat.filesize 1 fd
        if count ≠ 1 then pure (-eio, programDataPtr)
        else do
          let value ← load Obj.process? process
          store process (.process { value with
            filetype := processFiletypeBinary
            ptr := programDataPtr
            size := stat.filesize })
          pure (res, programDataPtr)

def processLoadBinary (filename : List UInt8) (process : Nat) : K Int := do
  let fd ← fopen read filename [114]
  let (res, programDataPtr) ← processLoadBinaryData read fd process
  if res < 0 ∧ programDataPtr ≠ 0 then kfree programDataPtr
  let _ ← fclose fd
  pure res

/-- `process_load_elf`, which the source leaves empty. -/
def processLoadElf (_filename : List UInt8) (_process : Nat) : K Int := pure 0

def processLoadData (filename : List UInt8) (process : Nat) : K Int := do
  let res ← processLoadElf filename process
  if res = -einformat then processLoadBinary read filename process else pure res

end Reader

/-- The flags of a program's pages. -/
abbrev userPageFlags : Nat := pagingIsPresent ||| pagingAccessFromAll ||| pagingIsWriteable

def processMapBinary (process : Nat) : K Int := do
  let value ← load Obj.process? process
  let task ← load Obj.task? value.task
  let _ ← pagingMapTo task.pageDirectory peachosProgramVirtualAddress value.ptr
    (pagingAlignAddress (u32 (value.ptr + value.size))) userPageFlags
  pure 0

/-- `process_map_elf`, which the source leaves empty. -/
def processMapElf (_process : Nat) : K Int := pure 0

/-- The part of `process_map_memory` that maps the stack. -/
def processMapStack (process : Nat) : K Unit := do
  let value ← load Obj.process? process
  let task ← load Obj.task? value.task
  let _ ← pagingMapTo task.pageDirectory peachosProgramVirtualStackAddressEnd value.stack
    (pagingAlignAddress (u32 (value.stack + peachosUserProgramStackSize))) userPageFlags

def processMapMemory (process : Nat) : K Int := do
  let value ← load Obj.process? process
  let res ← (if value.filetype = processFiletypeElf then processMapElf process
    else if value.filetype = processFiletypeBinary then processMapBinary process
    else panic "process_map_memory: Invalid filetype\n" : K Int)
  if res < 0 then pure res
  else do
    processMapStack process
    pure res

/-- The loop of `process_get_free_slot` from index `i` on. -/
def processGetFreeSlotLoop : (count i : Nat) → K Int
  | 0, _ => pure (-eistkn)
  | count + 1, i => do
      let process ← Exec.demand (.bufferIndex i) fun kernel => kernel.processes[i]?
      if process = 0 then pure i else processGetFreeSlotLoop count (i + 1)

def processGetFreeSlot : K Int := processGetFreeSlotLoop peachosMaxProcesses 0

section Reader

variable (read : StreamRead)

/-- The part of `process_load_for_slot` from the creation of the task on: the result and
`*process`. -/
def processLoadTask (process processSlot : Nat) : K (Int × Nat) := do
  let task ← taskNew process
  let value ← load Obj.process? process
  store process (.process { value with task := task })
  if task = 0 then do
    let value ← load Obj.process? process
    store process (.process { value with task := 0 })
    pure (0, 0)
  else do
    let res ← processMapMemory process
    if res < 0 then pure (res, 0)
    else do
      writeProcesses processSlot process
      pure (res, process)

/-- The part of `process_load_for_slot` after the allocation of the process: the result and
`*process`. -/
def processFill (filename : List UInt8) (process processSlot : Nat) : K (Int × Nat) := do
  processInit process
  let res ← processLoadData read filename process
  if res < 0 then pure (res, 0)
  else do
    let stack ← kzalloc peachosUserProgramStackSize
      (.bytes (List.replicate peachosUserProgramStackSize 0))
    let value ← load Obj.process? process
    store process (.process { value with stack := stack })
    if stack = 0 then pure (-enomem, 0)
    else do
      let value ← load Obj.process? process
      store process (.process { value with
        filename := strncpy value.filename filename peachosMaxPath
        id := processSlot })
      processLoadTask process processSlot

/-- `process_load_for_slot`: the result and `*process`, which is null where it is not
written. -/
def processLoadForSlot (filename : List UInt8) (processSlot : Nat) : K (Int × Nat) := do
  let taken ← processGet processSlot
  if taken ≠ 0 then pure (-eistkn, 0)
  else do
    let process ← kzalloc sizeofProcess (.process {})
    if process = 0 then pure (-enomem, 0)
    else do
      let (res, loaded) ← processFill read filename process processSlot
      if isErrCode res then do
        let _ ← processFreeProcess process
        pure (res, 0)
      else pure (res, loaded)

/-- `process_load`: the result and `*process`. -/
def processLoad (filename : List UInt8) : K (Int × Nat) := do
  let processSlot ← processGetFreeSlot
  if processSlot < 0 then pure (-eistkn, 0)
  else processLoadForSlot read filename processSlot.toNat

end Reader

end Peachos
