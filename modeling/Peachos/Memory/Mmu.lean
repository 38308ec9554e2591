import Peachos.Memory.Translation

/-! # The memory management unit

The processor translates an address with the entries of the directory and of a table. A user
program reaches a page if both entries are for users, and writes to it if both are writeable.
-/

namespace Peachos

open CInt

/-- The bit is set in the entry. -/
def entryHas (entry bit : Nat) : Bool := entry &&& bit != 0

/-- A translated address with the rights of both levels. -/
structure Access where
  address : Nat
  user : Bool
  writeable : Bool
  deriving DecidableEq, Repr

/-- The walk through a directory and a table; `none` is a page fault. -/
def mmuWalk (directory virt : Nat) : K (Option Access) := do
  let entries ← load Obj.dwords? directory
  let directoryEntry := entries (virt / (pagingTotalEntriesPerTable * pagingPageSize))
  if !entryHas directoryEntry pagingIsPresent then pure none
  else do
    let entries ← load Obj.dwords? (entryAddress directoryEntry)
    let tableEntry := entries
      (virt % (pagingTotalEntriesPerTable * pagingPageSize) / pagingPageSize)
    if !entryHas tableEntry pagingIsPresent then pure none
    else pure (some {
      address := entryAddress tableEntry + virt % pagingPageSize
      user := entryHas directoryEntry pagingAccessFromAll && entryHas tableEntry pagingAccessFromAll
      writeable := entryHas directoryEntry pagingIsWriteable &&
        entryHas tableEntry pagingIsWriteable })

/-- The bits of an entry are those of its flags. -/
theorem entryHas_or {address flags bit : Nat} (aligned : address % pagingPageSize = 0)
    (small : flags < pagingPageSize) (low : bit < pagingPageSize) :
    entryHas (address ||| flags) bit = entryHas flags bit := by
  unfold entryHas
  rw [@Bits.and_flags address flags 12 aligned small bit low]

section Walk

variable {tables : PageTables} {flags : Nat} {pages : Nat → Nat} {kernel : Kernel}

/-- **The walk through a page directory**, whose directory entries are all present and
writeable. -/
theorem mmuWalk_run (map : PageMap tables flags pages kernel) (small : flags < pagingPageSize)
    (present : entryHas (flags ||| pagingIsWriteable) pagingIsPresent = true)
    (user : entryHas (flags ||| pagingIsWriteable) pagingAccessFromAll = true)
    (writeable : entryHas (flags ||| pagingIsWriteable) pagingIsWriteable = true)
    {virt address access : Nat} (word : virt < 4294967296)
    (page : pages (virt / pagingPageSize) = address ||| access)
    (aligned : address % pagingPageSize = 0) (bounded : address + pagingPageSize ≤ 4294967296)
    (smallAccess : access < pagingPageSize) (mapped : entryHas access pagingIsPresent = true) :
    (mmuWalk tables.directory virt).run kernel = .ok (some {
      address := address + virt % pagingPageSize
      user := entryHas access pagingAccessFromAll
      writeable := entryHas access pagingIsWriteable }, kernel) := by
  have index : virt / (pagingTotalEntriesPerTable * pagingPageSize) < pagingTotalEntriesPerTable := by
    unfold pagingTotalEntriesPerTable pagingPageSize
    omega
  have rest : virt % (pagingTotalEntriesPerTable * pagingPageSize) / pagingPageSize <
      pagingTotalEntriesPerTable := by
    unfold pagingTotalEntriesPerTable pagingPageSize
    omega
  have split : virt / (pagingTotalEntriesPerTable * pagingPageSize) * pagingTotalEntriesPerTable +
      virt % (pagingTotalEntriesPerTable * pagingPageSize) / pagingPageSize =
        virt / pagingPageSize := by
    unfold pagingTotalEntriesPerTable pagingPageSize
    omega
  have smallDirectory : flags ||| pagingIsWriteable < pagingPageSize :=
    @Nat.or_lt_two_pow flags pagingIsWriteable 12 small (by decide)
  obtain ⟨directory, directoryHere, directoryEntries⟩ := map.directory
  obtain ⟨entries, tableHere, tableEntries⟩ := map.table _ index
  have loadedDirectory : (load Obj.dwords? tables.directory).run kernel = .ok (_, kernel) :=
    load_of_obj directoryHere rfl
  have loadedTable : (load Obj.dwords? (tables.table
      (virt / (pagingTotalEntriesPerTable * pagingPageSize)))).run kernel = .ok (_, kernel) :=
    load_of_obj tableHere rfl
  have bits : ∀ bit < pagingPageSize, entryHas (directory
      (virt / (pagingTotalEntriesPerTable * pagingPageSize))) bit =
        entryHas (flags ||| pagingIsWriteable) bit := by
    intro bit low
    rw [directoryEntries _ index, Nat.or_assoc,
      entryHas_or (map.aligned _ index) smallDirectory low]
  have tableAddress : entryAddress (directory
      (virt / (pagingTotalEntriesPerTable * pagingPageSize))) =
        tables.table (virt / (pagingTotalEntriesPerTable * pagingPageSize)) := by
    rw [directoryEntries _ index]
    exact entryAddress_directory (map.aligned _ index) small (map.bounded _ index)
  have entry : entries (virt % (pagingTotalEntriesPerTable * pagingPageSize) / pagingPageSize) =
      address ||| access := by
    rw [tableEntries _ rest, split, page]
  have tableBits : ∀ bit < pagingPageSize, entryHas (address ||| access) bit =
      entryHas access bit := fun bit low => entryHas_or aligned smallAccess low
  rw [mmuWalk, Exec.bind_of_ok loadedDirectory]
  dsimp only
  rw [bits _ (by decide), present, if_neg (by decide), tableAddress, Exec.bind_of_ok loadedTable,
    entry, tableBits _ (by decide), mapped, if_neg (by decide), Exec.run_pure,
    entryAddress_or aligned smallAccess bounded, bits _ (by decide), user, bits _ (by decide),
    writeable, tableBits _ (by decide), tableBits _ (by decide), Bool.true_and, Bool.true_and]

end Walk

end Peachos
