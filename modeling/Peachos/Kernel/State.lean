import Peachos.Kernel.Objects
import Peachos.Memory.HeapLive

/-! # The kernel state and its heap objects

The global variables of the kernel, the objects in its heap, and the bytes on its disk.
`kmalloc`, `kzalloc` and `kfree` of `kheap.c` work on the heap table and on the objects
together: an allocation gives its block the contents its caller uses it for, and every
access through a pointer is to a live object of the accessed type.
-/

namespace Peachos

open CInt

/-- The state of the kernel. -/
structure Kernel where
  /-- `kernel_heap` and `kernel_heap_table` -/
  heap : Heap
  /-- The contents of the live blocks of `kernel_heap`, by address. -/
  objs : Nat → Option Obj := fun _ => none
  /-- The bytes on the ATA drive. -/
  drive : Nat → UInt8 := fun _ => 0
  disk : Disk := {}
  filesystems : List (Option Filesystem) := [some .fat16]
  fileDescriptors : List Nat := List.replicate peachosMaxFileDescriptors 0
  processes : List Nat := List.replicate peachosMaxProcesses 0
  currentProcess : Nat := 0
  currentTask : Nat := 0
  taskHead : Nat := 0
  taskTail : Nat := 0
  /-- The page directory in `cr3`, which `paging_switch` also keeps in
  `current_directory`. -/
  currentDirectory : Nat := 0
  /-- `kernel_chunk` -/
  kernelChunk : Nat := 0

/-- A program of the kernel. -/
abbrev K := Exec Fault Kernel

namespace Kernel

/-- Replace the contents of a block. -/
def setObj (kernel : Kernel) (ptr : Nat) (contents : Option Obj) : Kernel :=
  { kernel with objs := Function.update kernel.objs ptr contents }

@[simp] theorem setObj_objs_self (kernel : Kernel) (ptr : Nat) (contents : Option Obj) :
    (kernel.setObj ptr contents).objs ptr = contents :=
  Function.update_self ..

theorem setObj_objs_of_ne (kernel : Kernel) {ptr other : Nat} (contents : Option Obj)
    (different : other ≠ ptr) : (kernel.setObj ptr contents).objs other = kernel.objs other :=
  Function.update_of_ne different ..

/-- Pointers to different objects are different. -/
theorem ne_of_objs {kernel : Kernel} {ptr other : Nat} {contents contents' : Obj}
    (present : kernel.objs ptr = some contents) (present' : kernel.objs other = some contents')
    (different : contents ≠ contents') : ptr ≠ other := by
  intro same
  rw [same, present'] at present
  exact different (Option.some.inj present).symm

@[simp] theorem setObj_setObj (kernel : Kernel) (ptr : Nat) (first second : Option Obj) :
    (kernel.setObj ptr first).setObj ptr second = kernel.setObj ptr second := by
  simp only [setObj, Function.update_idem]

/-- Writing back what is there changes nothing. -/
theorem setObj_eq_self {kernel : Kernel} {ptr : Nat} {contents : Option Obj}
    (present : kernel.objs ptr = contents) : kernel.setObj ptr contents = kernel := by
  simp only [setObj, ← present, Function.update_eq_self]

@[simp] theorem setObj_drive (kernel : Kernel) (ptr : Nat) (contents : Option Obj) :
    (kernel.setObj ptr contents).drive = kernel.drive := rfl

@[simp] theorem setObj_heap (kernel : Kernel) (ptr : Nat) (contents : Option Obj) :
    (kernel.setObj ptr contents).heap = kernel.heap := rfl

@[simp] theorem setObj_disk (kernel : Kernel) (ptr : Nat) (contents : Option Obj) :
    (kernel.setObj ptr contents).disk = kernel.disk := rfl

end Kernel

/-- Run a program on the kernel heap. -/
def onHeap {α : Type} (program : HeapM α) : K α :=
  Exec.zoom Kernel.heap (fun kernel heap => { kernel with heap := heap }) program

/-- Read the object a pointer points to. -/
def load {α : Type} (view : Obj → Option α) (ptr : Nat) : K α :=
  Exec.demand (.badPointer ptr) fun kernel => (kernel.objs ptr).bind view

/-- Write the object a pointer points to. -/
def store (ptr : Nat) (contents : Obj) : K Unit := Exec.of fun kernel =>
  if (kernel.objs ptr).isSome then .ok ((), kernel.setObj ptr (some contents))
  else .error (.badPointer ptr)

section Access

variable {α : Type} {view : Obj → Option α} {ptr : Nat} {kernel final : Kernel} {value : α}

theorem load_of_obj {contents : Obj} (present : kernel.objs ptr = some contents)
    (typed : view contents = some value) :
    (load view ptr).run kernel = .ok (value, kernel) := by
  apply Exec.demand_of_some
  rw [present, Option.bind_some, typed]

/-- A completed load found a live object of its type. -/
theorem load_eq_ok : (load view ptr).run kernel = .ok (value, final) ↔
    (∃ contents, kernel.objs ptr = some contents ∧ view contents = some value) ∧
      final = kernel := by
  unfold load
  rw [Exec.demand_eq_ok, Option.bind_eq_some_iff]

theorem store_of_live {contents : Obj} (live : (kernel.objs ptr).isSome) :
    (store ptr contents).run kernel = .ok ((), kernel.setObj ptr (some contents)) := by
  simp only [store, Exec.run_of, live, if_true]

/-- A completed store went to a live object. -/
theorem store_eq_ok {contents : Obj} {done : Unit} :
    (store ptr contents).run kernel = .ok (done, final) ↔
      (kernel.objs ptr).isSome ∧ final = kernel.setObj ptr (some contents) := by
  by_cases live : (kernel.objs ptr).isSome
  · rw [store_of_live live]
    simp only [Except.ok.injEq, Prod.mk.injEq, live, true_and, eq_comm]
  · simp only [store, Exec.run_of, live, Bool.false_eq_true, if_false, reduceCtorEq, false_and]

/-- A completed sequence that starts with a load. -/
theorem load_bind_eq_ok {β : Type} {next : α → K β} {result : β} :
    (load view ptr >>= next).run kernel = .ok (result, final) ↔
      ∃ contents value, kernel.objs ptr = some contents ∧ view contents = some value ∧
        (next value).run kernel = .ok (result, final) := by
  rw [Exec.bind_eq_ok]
  constructor
  · rintro ⟨value, middle, loaded, rest⟩
    obtain ⟨⟨contents, present, typed⟩, rfl⟩ := load_eq_ok.mp loaded
    exact ⟨contents, value, present, typed, rest⟩
  · rintro ⟨contents, value, present, typed, rest⟩
    exact ⟨value, kernel, load_of_obj present typed, rest⟩

/-- A completed sequence that starts with a store. -/
theorem store_bind_eq_ok {β : Type} {contents : Obj} {next : Unit → K β} {result : β} :
    (store ptr contents >>= next).run kernel = .ok (result, final) ↔
      (kernel.objs ptr).isSome ∧
        (next ()).run (kernel.setObj ptr (some contents)) = .ok (result, final) := by
  rw [Exec.bind_eq_ok]
  constructor
  · rintro ⟨done, middle, stored, rest⟩
    obtain ⟨present, rfl⟩ := store_eq_ok.mp stored
    exact ⟨present, rest⟩
  · rintro ⟨present, rest⟩
    exact ⟨(), _, store_of_live present, rest⟩

/-- A change of one object keeps what the changed object does not break. -/
theorem loadStore_ensures {invariant : Kernel → Prop} {change : α → Obj} {β : Type}
    {next : α → K β} {post : β → Prop}
    (kept : ∀ kernel contents value, invariant kernel → kernel.objs ptr = some contents →
      view contents = some value → invariant (kernel.setObj ptr (some (change value))))
    (rest : ∀ value, Exec.Ensures invariant (next value) post) :
    Exec.Ensures invariant (do
      let value ← load view ptr
      store ptr (change value)
      next value) post := by
  intro kernel result final holds run
  obtain ⟨contents, value, present, typed, changed⟩ := load_bind_eq_ok.mp run
  obtain ⟨_, continued⟩ := store_bind_eq_ok.mp changed
  exact rest value _ result final (kept _ contents value holds present typed) continued

end Access

/-- Give the `size` bytes from `ptr` on the contents, in place of whatever was there. -/
def Kernel.place (kernel : Kernel) (ptr size : Nat) (contents : Obj) : Kernel :=
  { kernel with
    objs := fun other =>
      if other = ptr then some contents
      else if ptr < other ∧ other < ptr + size then none
      else kernel.objs other }

/-- `kmalloc`, giving the block the contents its caller stores in it. -/
def kmalloc (size : Nat) (contents : Obj) : K Nat := do
  let ptr ← onHeap (heapMalloc size)
  if ptr = 0 then pure 0
  else do
    Exec.update fun kernel => kernel.place ptr size contents
    pure ptr

/-- `kzalloc`, with `zeroed` the object whose bytes are all zero. -/
def kzalloc (size : Nat) (zeroed : Obj) : K Nat := kmalloc size zeroed

/-- `kfree`. Freeing what is not a live allocation is a fault. -/
def kfree (ptr : Nat) : K Unit := do
  let live ← Exec.read fun kernel => (kernel.objs ptr).isSome
  if live then do
    onHeap (heapFree ptr)
    Exec.update fun kernel => kernel.setObj ptr none
  else Exec.fault (.badFree ptr)

/-- Write `raw` to a buffer from `offset` on. -/
def writeBytes (ptr offset : Nat) (raw : List UInt8) : K Unit := do
  let contents ← load Obj.bytes? ptr
  if offset + raw.length ≤ contents.length then
    store ptr (.bytes (contents.take offset ++ raw ++ contents.drop (offset + raw.length)))
  else Exec.fault (.bufferIndex contents.length)

theorem writeBytes_run {kernel : Kernel} {ptr offset : Nat} {contents out : List UInt8}
    (present : kernel.objs ptr = some (.bytes contents))
    (fits : offset + out.length ≤ contents.length) :
    (writeBytes ptr offset out).run kernel = .ok ((), kernel.setObj ptr
      (some (.bytes (contents.take offset ++ out ++ contents.drop (offset + out.length))))) := by
  have loaded : (load Obj.bytes? ptr).run kernel = .ok (contents, kernel) :=
    load_of_obj present rfl
  rw [writeBytes, Exec.bind_of_ok loaded, if_pos fits]
  exact store_of_live (by rw [present]; rfl)

/-- A completed write stayed inside its buffer. -/
theorem writeBytes_eq_ok {kernel next : Kernel} {ptr offset : Nat} {out : List UInt8} {done : Unit}
    (run : (writeBytes ptr offset out).run kernel = .ok (done, next)) :
    ∃ contents, kernel.objs ptr = some (.bytes contents) ∧
      offset + out.length ≤ contents.length ∧ next = kernel.setObj ptr (some (.bytes
        (contents.take offset ++ out ++ contents.drop (offset + out.length)))) := by
  obtain ⟨found, contents, present, typed, wrote⟩ := load_bind_eq_ok.mp run
  cases found <;> cases typed
  by_cases fits : offset + out.length ≤ contents.length
  · rw [if_pos fits] at wrote
    exact ⟨contents, present, fits, (store_eq_ok.mp wrote).2⟩
  · rw [if_neg fits, Exec.run_fault] at wrote
    cases wrote

/-- `panic` -/
def panic {α : Type} (message : String) : K α := Exec.fault (.panic message)

/-- A region for the kernel heap: its pointers are not null and not negative as `int`. -/
structure KernelRegion extends HeapRegion where
  notNull : 0 < start
  positive : start + bytes ≤ 2147483648

/-- The region that `kheap_init` uses. -/
def kernelHeapRegion : KernelRegion where
  start := peachosHeapAddress
  bytes := peachosHeapSizeBytes
  startAligned := by decide
  bytesAligned := by decide
  below2GiB := by decide
  addressable := by decide
  notNull := by decide
  positive := by decide

/-- The heap table encodes the live allocations, and each of them has its object. An
object without an allocation sits on a free block: it is what a request for zero bytes
returned. -/
structure KernelInvariant (region : KernelRegion) (live : List Allocation) (kernel : Kernel) :
    Prop where
  heap : HeapInvariant region.toHeapRegion live kernel.heap
  held : ∀ allocation ∈ live, (kernel.objs allocation.ptr).isSome
  owned : ∀ ptr, (kernel.objs ptr).isSome →
    (∃ allocation ∈ live, allocation.ptr = ptr) ∨
      ∃ block < kernel.heap.table.total, kernel.heap.isFree block = true ∧
        ptr = region.start + peachosHeapBlockSize * block

end Peachos
