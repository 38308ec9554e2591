import Peachos.Memory.Paging

/-! # Tasks

`task.c`. The tasks form a doubly linked list in the heap with the globals `task_head` and
`task_tail`; `current_task` is the one that runs.
-/

namespace Peachos

open CInt

/-- The size of `struct task`. -/
abbrev sizeofTask : Nat := 64

/-- `ISERR`, for an `int`. -/
def isErrCode (res : Int) : Bool := res < 0

def taskInit (task process : Nat) : K Int := do
  store task (.task {})
  let pageDirectory ← pagingNew4gb (pagingIsPresent ||| pagingAccessFromAll)
  let value ← load Obj.task? task
  store task (.task { value with pageDirectory := pageDirectory })
  if pageDirectory = 0 then pure (-eio)
  else do
    let _ ← load Obj.process? process
    let value ← load Obj.task? task
    store task (.task { value with
      registers := { value.registers with
        ip := peachosProgramVirtualAddress
        ss := userDataSegment
        cs := userCodeSegment
        esp := peachosProgramVirtualStackAddressStart }
      process := process })
    pure 0

/-- `task_get_next`, which reads `current_task->next`. -/
def taskGetNext : K Nat := do
  let current ← Exec.read Kernel.currentTask
  let value ← load Obj.task? current
  if value.next = 0 then Exec.read Kernel.taskHead else pure value.next

/-- The part of `task_list_remove` that takes the task out of the `next` links. -/
def taskListSkip (value : Task) : K Unit :=
  Exec.when (value.prev ≠ 0) do
    let before ← load Obj.task? value.prev
    store value.prev (.task { before with next := value.next })

def taskListRemove (task : Nat) : K Unit := do
  let value ← load Obj.task? task
  taskListSkip value
  let head ← Exec.read Kernel.taskHead
  Exec.when (task = head) (Exec.update fun kernel => { kernel with taskHead := value.next })
  let tail ← Exec.read Kernel.taskTail
  Exec.when (task = tail) (Exec.update fun kernel => { kernel with taskTail := value.prev })
  let current ← Exec.read Kernel.currentTask
  Exec.when (task = current) do
    let next ← taskGetNext
    Exec.update fun kernel => { kernel with currentTask := next }

def taskFree (task : Nat) : K Int := do
  let value ← load Obj.task? task
  pagingFree4gb value.pageDirectory
  taskListRemove task
  kfree task
  pure 0

/-- The part of `task_new` that puts the task at the end of the list. -/
def taskListAppend (task : Nat) : K Unit := do
  let head ← Exec.read Kernel.taskHead
  if head = 0 then
    Exec.update fun kernel =>
      { kernel with taskHead := task, taskTail := task, currentTask := task }
  else do
    let tail ← Exec.read Kernel.taskTail
    let last ← load Obj.task? tail
    store tail (.task { last with next := task })
    let value ← load Obj.task? task
    store task (.task { value with prev := tail })
    Exec.update fun kernel => { kernel with taskTail := task }

/-- `task_new`; an error is returned as a pointer. -/
def taskNew (process : Nat) : K Nat := do
  let task ← kzalloc sizeofTask (.task {})
  if task = 0 then do
    let _ ← taskFree task
    pure (u32 (-enomem))
  else do
    let res ← taskInit task process
    if res ≠ peachosAllOk then do
      if isErrCode res then do
        let _ ← taskFree task
        pure (u32 res)
      else pure task
    else do
      taskListAppend task
      pure task

def taskSwitch (task : Nat) : K Unit := do
  Exec.update fun kernel => { kernel with currentTask := task }
  let value ← load Obj.task? task
  pagingSwitch value.pageDirectory

end Peachos
