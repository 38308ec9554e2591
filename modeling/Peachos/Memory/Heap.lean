import Peachos.Config

/-! # The block heap

`heap.c`: a table with one byte for each 4096-byte block of the heap region. The low
nibble of an entry says whether the block is taken, `HEAP_BLOCK_IS_FIRST` marks the
first block of an allocation, and `HEAP_BLOCK_HAS_NEXT` says that the next block
belongs to the same allocation. Every access to the table is checked against
`table->total` and faults outside it.
-/

namespace Peachos

open CInt

abbrev heapBlockTableEntryTaken : UInt8 := 0x01
abbrev heapBlockTableEntryFree : UInt8 := 0x00
abbrev heapBlockHasNext : UInt8 := 0b10000000
abbrev heapBlockIsFirst : UInt8 := 0b01000000

/-- `struct heap_table`, with the `total` entries that `entries` points to. -/
structure HeapTable where
  entries : List UInt8
  deriving DecidableEq, Repr

/-- The number of entries, `table->total`. -/
def HeapTable.total (table : HeapTable) : Nat := table.entries.length

/-- `struct heap` -/
structure Heap where
  table : HeapTable
  saddr : Nat
  deriving DecidableEq, Repr

/-- A program over the heap. -/
abbrev HeapM := Exec Fault Heap

/-- Read `table->entries[index]`. -/
def readEntry (index : Int) : HeapM UInt8 :=
  Exec.demand (.tableIndex index) fun heap =>
    if 0 ≤ index then heap.table.entries[index.toNat]? else none

/-- Write `table->entries[index]`. -/
def writeEntry (index : Int) (entry : UInt8) : HeapM Unit := Exec.of fun heap =>
  if 0 ≤ index ∧ index.toNat < heap.table.total then
    .ok ((), { heap with table := ⟨heap.table.entries.set index.toNat entry⟩ })
  else .error (.tableIndex index)

def heapValidateTable (ptr stop : Nat) (table : HeapTable) : Int :=
  let tableSize := u32 (stop - ptr)
  let totalBlocks := tableSize / peachosHeapBlockSize
  if table.total ≠ totalBlocks then -einvagr else 0

def heapValidateAlignment (ptr : Nat) : Bool := ptr % peachosHeapBlockSize == 0

def heapCreate (heap : Heap) (ptr stop : Nat) (table : HeapTable) : Int × Heap :=
  if !heapValidateAlignment ptr || !heapValidateAlignment stop then (-einvagr, heap)
  else
    let heap : Heap := { saddr := ptr, table := table }
    let res := heapValidateTable ptr stop table
    if res < 0 then (res, heap)
    else (res, { heap with table := ⟨List.replicate table.total heapBlockTableEntryFree⟩ })

def heapAlignValueToUpper (val : Nat) : Nat :=
  if val % peachosHeapBlockSize = 0 then val
  else
    let val := val - val % peachosHeapBlockSize
    u32 (val + peachosHeapBlockSize)

def heapGetEntryType (entry : UInt8) : UInt8 := entry &&& 0x0f

/-- The search loop of `heap_get_start_block` from index `i` on, `remaining` entries
before the end of the table. -/
def heapGetStartBlockLoop (totalBlocks : Nat) :
    (remaining i : Nat) → (bc bs : Int) → HeapM Int
  | 0, _, _, bs => pure bs
  | remaining + 1, i, bc, bs => do
      let entry ← readEntry i
      if heapGetEntryType entry ≠ heapBlockTableEntryFree then
        heapGetStartBlockLoop totalBlocks remaining (i + 1) 0 (-1)
      else
        let bs := if bs = -1 then i32 i else bs
        let bc := i32 (bc + 1)
        if u32 bc = totalBlocks then pure bs
        else heapGetStartBlockLoop totalBlocks remaining (i + 1) bc bs

def heapGetStartBlock (totalBlocks : Nat) : HeapM Int := do
  let total ← Exec.read fun heap => heap.table.total
  let bs ← heapGetStartBlockLoop totalBlocks total 0 0 (-1)
  if bs = -1 then pure (-enomem) else pure bs

def heapBlockToAddress (heap : Heap) (block : Int) : Nat :=
  u32 (heap.saddr + i32 (block * peachosHeapBlockSize))

/-- The marking loop of `heap_mark_blocks_taken`: write `entry` at `i`, then the entry
for the next block, `count` times. -/
def heapMarkBlocksTakenLoop (endBlock : Int) : (count : Nat) → (i : Int) → UInt8 → HeapM Unit
  | 0, _, _ => pure ()
  | count + 1, i, entry => do
      writeEntry i entry
      let entry := heapBlockTableEntryTaken
      let entry := if i ≠ i32 (endBlock - 1) then entry ||| heapBlockHasNext else entry
      heapMarkBlocksTakenLoop endBlock count (i + 1) entry

def heapMarkBlocksTaken (startBlock totalBlocks : Int) : HeapM Unit :=
  let endBlock := i32 (i32 (startBlock + totalBlocks) - 1)
  let entry := heapBlockTableEntryTaken ||| heapBlockIsFirst
  let entry := if totalBlocks > 1 then entry ||| heapBlockHasNext else entry
  heapMarkBlocksTakenLoop endBlock (endBlock - startBlock + 1).toNat startBlock entry

def heapMallocBlocks (totalBlocks : Nat) : HeapM Nat := do
  let startBlock ← heapGetStartBlock totalBlocks
  if startBlock < 0 then pure 0
  else
    let address ← Exec.read fun heap => heapBlockToAddress heap startBlock
    heapMarkBlocksTaken startBlock (i32 totalBlocks)
    pure address

/-- The loop of `heap_mark_blocks_free` from index `i` on, `count` entries before the
end of the table. -/
def heapMarkBlocksFreeLoop : (count : Nat) → (i : Int) → HeapM Unit
  | 0, _ => pure ()
  | count + 1, i => do
      let entry ← readEntry i
      writeEntry i heapBlockTableEntryFree
      if entry &&& heapBlockHasNext = 0 then pure ()
      else heapMarkBlocksFreeLoop count (i + 1)

def heapMarkBlocksFree (startingBlock : Int) : HeapM Unit := do
  let total ← Exec.read fun heap => i32 heap.table.total
  heapMarkBlocksFreeLoop (total - startingBlock).toNat startingBlock

def heapAddressToBlock (heap : Heap) (address : Nat) : Int :=
  (i32 (address - heap.saddr)).tdiv peachosHeapBlockSize

def heapMalloc (size : Nat) : HeapM Nat :=
  let alignedSize := heapAlignValueToUpper size
  let totalBlocks := alignedSize / peachosHeapBlockSize
  heapMallocBlocks totalBlocks

def heapFree (ptr : Nat) : HeapM Unit := do
  let block ← Exec.read fun heap => heapAddressToBlock heap ptr
  heapMarkBlocksFree block

end Peachos
