import Peachos.Kernel.State

/-! # Page directories

`paging.c`. A chunk points to a directory of 1024 entries, and each of them to a table of
1024 entries with the physical address of a page in the upper 20 bits and its flags in the
lower 12.
-/

namespace Peachos

open CInt

abbrev pagingAccessFromAll : Nat := 4
abbrev pagingIsWriteable : Nat := 2
abbrev pagingIsPresent : Nat := 1
abbrev pagingTotalEntriesPerTable : Nat := 1024
abbrev pagingPageSize : Nat := 4096

/-- The size of a directory or of a table. -/
abbrev sizeofTable : Nat := 4096

/-- The size of `struct paging_4gb_chunk`. -/
abbrev sizeofPaging4gbChunk : Nat := 4

/-- The part of an entry that is an address, `entry & 0xfffff000`. -/
def entryAddress (entry : Nat) : Nat := entry &&& 0xfffff000

/-- The table after the inner loop of `paging_new_4gb`. -/
def fillTable (entries : Nat → Nat) (offset : Int) (flags : Nat) (b : Nat) : Nat :=
  if b < pagingTotalEntriesPerTable then u32 (offset + i32 (b * pagingPageSize)) ||| flags
  else entries b

/-- The outer loop of `paging_new_4gb` from index `i` on. -/
def pagingNew4gbLoop (directory flags : Nat) : (count i : Nat) → (offset : Int) → K Unit
  | 0, _, _ => pure ()
  | count + 1, i, offset => do
      let entry ← kzalloc sizeofTable (.dwords fun _ => 0)
      let entries ← load Obj.dwords? entry
      store entry (.dwords (fillTable entries offset flags))
      let entries ← load Obj.dwords? directory
      store directory (.dwords (Function.update entries i (entry ||| flags ||| pagingIsWriteable)))
      pagingNew4gbLoop directory flags count (i + 1)
        (i32 (offset + pagingTotalEntriesPerTable * pagingPageSize))

def pagingNew4gb (flags : Nat) : K Nat := do
  let directory ← kzalloc sizeofTable (.dwords fun _ => 0)
  pagingNew4gbLoop directory flags pagingTotalEntriesPerTable 0 0
  let chunk4gb ← kzalloc sizeofPaging4gbChunk (.chunk 0)
  store chunk4gb (.chunk directory)
  pure chunk4gb

def pagingSwitch (directory : Nat) : K Unit := do
  let directoryEntry ← load Obj.chunk? directory
  Exec.update fun kernel => { kernel with currentDirectory := directoryEntry }

/-- The loop of `paging_free_4gb` from index `i` on. -/
def pagingFree4gbLoop (chunk : Nat) : (count i : Nat) → K Unit
  | 0, _ => pure ()
  | count + 1, i => do
      let directory ← load Obj.chunk? chunk
      let entries ← load Obj.dwords? directory
      kfree (entryAddress (entries i))
      pagingFree4gbLoop chunk count (i + 1)

def pagingFree4gb (chunk : Nat) : K Unit := do
  pagingFree4gbLoop chunk 1024 0
  let directory ← load Obj.chunk? chunk
  kfree directory
  kfree chunk

def paging4gbChunkGetDirectory (chunk : Nat) : K Nat := load Obj.chunk? chunk

def pagingIsAligned (addr : Nat) : Bool := addr % pagingPageSize == 0

def pagingAlignAddress (ptr : Nat) : Nat :=
  if ptr % pagingPageSize ≠ 0 then u32 (ptr + pagingPageSize - ptr % pagingPageSize) else ptr

def pagingAlignToLowerPage (addr : Nat) : Nat := addr - addr % pagingPageSize

/-- `directory_index_out` and `table_index_out` of `paging_get_indexes`. -/
def pagingGetIndexes (virt : Nat) : Nat × Nat :=
  (virt / (pagingTotalEntriesPerTable * pagingPageSize),
    virt % (pagingTotalEntriesPerTable * pagingPageSize) / pagingPageSize)

def pagingSet (directory virt val : Nat) : K Int :=
  if !pagingIsAligned virt then pure (-einvagr)
  else do
    let (directoryIndex, tableIndex) := pagingGetIndexes virt
    let entries ← load Obj.dwords? directory
    let table := entryAddress (entries directoryIndex)
    let entries ← load Obj.dwords? table
    store table (.dwords (Function.update entries tableIndex val))
    pure 0

def pagingMap (directory virt phys flags : Nat) : K Int :=
  if virt % pagingPageSize ≠ 0 ∨ phys % pagingPageSize ≠ 0 then pure (-einvagr)
  else do
    let directoryEntry ← load Obj.chunk? directory
    pagingSet directoryEntry virt (phys ||| flags)

/-- The loop of `paging_map_range`; `res` is the result of the last call. -/
def pagingMapRange (directory : Nat) :
    (count virt phys flags : Nat) → (res : Int) → K Int
  | 0, _, _, _, res => pure res
  | count + 1, virt, phys, flags, _ => do
      let res ← pagingMap directory virt phys flags
      if res < 0 then pure res
      else
        pagingMapRange directory count (u32 (virt + pagingPageSize))
          (u32 (phys + pagingPageSize)) flags res

def pagingMapTo (directory virt phys physEnd flags : Nat) : K Int :=
  if virt % pagingPageSize ≠ 0 then pure (-einvagr)
  else if phys % pagingPageSize ≠ 0 then pure (-einvagr)
  else if physEnd % pagingPageSize ≠ 0 then pure (-einvagr)
  else if physEnd < phys then pure (-einvagr)
  else
    let totalBytes := physEnd - phys
    let totalPages := totalBytes / pagingPageSize
    pagingMapRange directory totalPages virt phys flags 0

/-- `paging_get`, for an aligned address. -/
def pagingGet (directory virt : Nat) : K Nat := do
  let (directoryIndex, tableIndex) := pagingGetIndexes virt
  let entries ← load Obj.dwords? directory
  let table := entryAddress (entries directoryIndex)
  let entries ← load Obj.dwords? table
  pure (entries tableIndex)

def pagingGetPhysicalAddress (directory virt : Nat) : K Nat := do
  let virtAddrNew := pagingAlignToLowerPage virt
  let difference := virt - virtAddrNew
  let entry ← pagingGet directory virtAddrNew
  pure (u32 (entryAddress entry + difference : Nat))

end Peachos
