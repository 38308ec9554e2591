import Peachos.Foundation.Bits
import Peachos.Kernel.Frame
import Peachos.Memory.Paging

/-! # A page directory as a map of pages

`PageMap` says that a chunk, its directory and its 1024 tables hold a given entry for every
page. `pagingMapTo_spec` changes the entries of a range of pages.
-/

namespace Peachos

open CInt

/-- The objects of a page directory. -/
structure PageTables where
  chunk : Nat
  directory : Nat
  table : Nat → Nat

/-- The object is part of the page directory. -/
def PageTables.owns (tables : PageTables) (ptr : Nat) : Prop :=
  ptr = tables.chunk ∨ ptr = tables.directory ∨
    ∃ i < pagingTotalEntriesPerTable, ptr = tables.table i

/-- The directory's entries have the given flags and writeable access, and its tables hold
`pages page` for every page. -/
structure PageMap (tables : PageTables) (flags : Nat) (pages : Nat → Nat) (kernel : Kernel) :
    Prop where
  chunk : kernel.objs tables.chunk = some (.chunk tables.directory)
  directory : ∃ entries, kernel.objs tables.directory = some (.dwords entries) ∧
    ∀ i < pagingTotalEntriesPerTable, entries i = tables.table i ||| flags ||| pagingIsWriteable
  table : ∀ i < pagingTotalEntriesPerTable, ∃ entries,
    kernel.objs (tables.table i) = some (.dwords entries) ∧
      ∀ b < pagingTotalEntriesPerTable,
        entries b = pages (i * pagingTotalEntriesPerTable + b)
  aligned : ∀ i < pagingTotalEntriesPerTable, tables.table i % pagingPageSize = 0
  bounded : ∀ i < pagingTotalEntriesPerTable, tables.table i + pagingPageSize ≤ 4294967296
  apart : ∀ i < pagingTotalEntriesPerTable, ∀ j < pagingTotalEntriesPerTable,
    tables.table i = tables.table j → i = j
  notDirectory : ∀ i < pagingTotalEntriesPerTable, tables.table i ≠ tables.directory

theorem entryAddress_or {address flags : Nat} (aligned : address % pagingPageSize = 0)
    (small : flags < pagingPageSize) (bounded : address + pagingPageSize ≤ 4294967296) :
    entryAddress (address ||| flags) = address := by
  unfold pagingPageSize at *
  exact @Bits.or_and_high address flags 12 32 (by decide) aligned small (by omega)

/-- The flags of an entry. -/
theorem entryFlags_or {address flags : Nat} (aligned : address % pagingPageSize = 0)
    (small : flags < pagingPageSize) : (address ||| flags) % pagingPageSize = flags := by
  rw [@Bits.aligned_or address flags 12 aligned small, Nat.add_mod, aligned, Nat.zero_add,
    Nat.mod_mod, Nat.mod_eq_of_lt small]

/-- The directory entry of a table leads to the table. -/
theorem entryAddress_directory {address flags : Nat} (aligned : address % pagingPageSize = 0)
    (small : flags < pagingPageSize) (bounded : address + pagingPageSize ≤ 4294967296) :
    entryAddress (address ||| flags ||| pagingIsWriteable) = address := by
  rw [Nat.or_assoc]
  apply entryAddress_or aligned _ bounded
  exact @Nat.or_lt_two_pow flags pagingIsWriteable 12 small (by decide)

section Change

variable {tables : PageTables} {flags : Nat} {pages : Nat → Nat} {kernel : Kernel}

/-- A page directory stays as long as its objects do. -/
theorem PageMap.of_kept (map : PageMap tables flags pages kernel) {next : Kernel}
    (kept : ∀ ptr, tables.owns ptr → next.objs ptr = kernel.objs ptr) :
    PageMap tables flags pages next where
  chunk := by rw [kept _ (.inl rfl), map.chunk]
  directory := by
    rw [kept _ (.inr (.inl rfl))]
    exact map.directory
  table := by
    intro i inside
    rw [kept _ (.inr (.inr ⟨i, inside, rfl⟩))]
    exact map.table i inside
  aligned := map.aligned
  bounded := map.bounded
  apart := map.apart
  notDirectory := map.notDirectory

/-- The objects of a page directory are its chunk and tables. -/
theorem PageMap.contents (map : PageMap tables flags pages kernel) {ptr : Nat}
    (own : tables.owns ptr) : (∃ directory, kernel.objs ptr = some (.chunk directory)) ∨
      ∃ entries, kernel.objs ptr = some (.dwords entries) := by
  rcases own with rfl | rfl | ⟨i, inside, rfl⟩
  · exact .inl ⟨_, map.chunk⟩
  · obtain ⟨entries, here, _⟩ := map.directory
    exact .inr ⟨entries, here⟩
  · obtain ⟨entries, here, _⟩ := map.table i inside
    exact .inr ⟨entries, here⟩

/-- The table entry of a page. -/
theorem pagingGetIndexes_page {page : Nat} :
    pagingGetIndexes (page * pagingPageSize) =
      (page / pagingTotalEntriesPerTable, page % pagingTotalEntriesPerTable) := by
  unfold pagingGetIndexes pagingTotalEntriesPerTable pagingPageSize
  congr 1 <;> omega

/-- **One entry.** Setting a page's entry changes that page only, and only the objects of
this page directory. -/
theorem pagingSet_spec (map : PageMap tables flags pages kernel)
    (small : flags < pagingPageSize) {page : Nat} (inside : page < 1048576) (val : Nat) :
    ∃ next, (pagingSet tables.directory (page * pagingPageSize) val).run kernel =
        .ok (0, next) ∧ PageMap tables flags (Function.update pages page val) next ∧
      WritesOnly tables.owns kernel next := by
  have index : page / pagingTotalEntriesPerTable < pagingTotalEntriesPerTable := by
    unfold pagingTotalEntriesPerTable
    omega
  have whole := Nat.div_add_mod page pagingTotalEntriesPerTable
  have rest : page % pagingTotalEntriesPerTable < pagingTotalEntriesPerTable :=
    Nat.mod_lt _ (by decide)
  obtain ⟨directory, directoryHere, directoryEntries⟩ := map.directory
  obtain ⟨entries, tableHere, tableEntries⟩ := map.table _ index
  have loadedDirectory : (load Obj.dwords? tables.directory).run kernel = .ok (_, kernel) :=
    load_of_obj directoryHere rfl
  have loadedTable : (load Obj.dwords? (tables.table (page / pagingTotalEntriesPerTable))).run
      kernel = .ok (_, kernel) := load_of_obj tableHere rfl
  have address : entryAddress (directory (page / pagingTotalEntriesPerTable)) =
      tables.table (page / pagingTotalEntriesPerTable) := by
    rw [directoryEntries _ index]
    exact entryAddress_directory (map.aligned _ index) small (map.bounded _ index)
  have alignedPage : pagingIsAligned (page * pagingPageSize) = true := by
    unfold pagingIsAligned
    rw [Nat.mul_mod_left]
    rfl
  refine ⟨kernel.setObj _ (some (.dwords
    (Function.update entries (page % pagingTotalEntriesPerTable) val))), ?_, ?_,
    .setObj (.inr (.inr ⟨_, index, rfl⟩)) (by rw [tableHere]; rfl) _⟩
  · rw [pagingSet, alignedPage, pagingGetIndexes_page]
    simp only [Bool.not_true, Bool.false_eq_true, if_false]
    rw [Exec.bind_of_ok loadedDirectory, address, Exec.bind_of_ok loadedTable,
      Exec.bind_of_ok (store_of_live (by rw [tableHere]; rfl)), Exec.run_pure]
  · have chunkApart : tables.chunk ≠ tables.table (page / pagingTotalEntriesPerTable) :=
      Kernel.ne_of_objs map.chunk tableHere nofun
    constructor
    · rw [Kernel.setObj_objs_of_ne _ _ chunkApart, map.chunk]
    · rw [Kernel.setObj_objs_of_ne _ _ (map.notDirectory _ index).symm]
      exact map.directory
    · intro i before
      by_cases same : i = page / pagingTotalEntriesPerTable
      · rw [same, Kernel.setObj_objs_self]
        refine ⟨_, rfl, fun b within => ?_⟩
        by_cases here : b = page % pagingTotalEntriesPerTable
        · rw [here, Function.update_self, Nat.mul_comm, whole, Function.update_self]
        · rw [Function.update_of_ne here, Function.update_of_ne, tableEntries b within]
          unfold pagingTotalEntriesPerTable at here ⊢
          omega
      · rw [Kernel.setObj_objs_of_ne _ _ fun equal => same (map.apart i before _ index equal)]
        obtain ⟨entries', here, values⟩ := map.table i before
        refine ⟨entries', here, fun b within => ?_⟩
        rw [Function.update_of_ne, values b within]
        intro equal
        apply same
        rw [← equal]
        unfold pagingTotalEntriesPerTable at within ⊢
        omega
    · exact map.aligned
    · exact map.bounded
    · exact map.apart
    · exact map.notDirectory

/-- The pages after a range of them was mapped to a range of frames. -/
def mapPages (pages : Nat → Nat) (virtPage physPage count flags page : Nat) : Nat :=
  if virtPage ≤ page ∧ page < virtPage + count then
    (physPage + (page - virtPage)) * pagingPageSize ||| flags
  else pages page

theorem mapPages_zero (pages : Nat → Nat) (virtPage physPage flags : Nat) :
    mapPages pages virtPage physPage 0 flags = pages := by
  funext page
  exact if_neg (by omega)

/-- Mapping one page and then the ones after it. -/
theorem mapPages_succ (pages : Nat → Nat) (virtPage physPage count flags : Nat) :
    mapPages (Function.update pages virtPage (physPage * pagingPageSize ||| flags))
        (virtPage + 1) (physPage + 1) count flags =
      mapPages pages virtPage physPage (count + 1) flags := by
  funext page
  unfold mapPages
  by_cases first : page = virtPage
  · rw [if_neg (by omega), if_pos (by omega), first, Function.update_self, Nat.sub_self,
      Nat.add_zero]
  · rw [Function.update_of_ne first]
    by_cases later : virtPage + 1 ≤ page ∧ page < virtPage + 1 + count
    · rw [if_pos later, if_pos (by omega),
        show physPage + 1 + (page - (virtPage + 1)) = physPage + (page - virtPage) by omega]
    · rw [if_neg later, if_neg (by omega)]

/-- **A range of pages.** -/
theorem pagingMapRange_spec (small : flags < pagingPageSize) (access : Nat) :
    ∀ (count virtPage physPage : Nat) (pages : Nat → Nat) (kernel : Kernel),
      PageMap tables flags pages kernel → virtPage + count ≤ 1048576 →
      physPage + count ≤ 1048576 →
      ∃ next, (pagingMapRange tables.chunk count (u32 (virtPage * pagingPageSize : Nat))
          (u32 (physPage * pagingPageSize : Nat)) access 0).run kernel = .ok (0, next) ∧
        PageMap tables flags (mapPages pages virtPage physPage count access) next ∧
        WritesOnly tables.owns kernel next := by
  intro count
  induction count with
  | zero =>
      intro virtPage physPage pages kernel map _ _
      refine ⟨kernel, rfl, ?_, .refl kernel⟩
      rw [mapPages_zero]
      exact map
  | succ count ih =>
      intro virtPage physPage pages kernel map virtInside physInside
      obtain ⟨middle, set, map', only⟩ := pagingSet_spec map small (show virtPage < 1048576 by
        omega) (physPage * pagingPageSize ||| access)
      have loaded : (load Obj.chunk? tables.chunk).run kernel = .ok (_, kernel) :=
        load_of_obj map.chunk rfl
      have virt : u32 (virtPage * pagingPageSize : Nat) = virtPage * pagingPageSize :=
        u32_natCast (by unfold pagingPageSize; omega)
      have phys : u32 (physPage * pagingPageSize : Nat) = physPage * pagingPageSize :=
        u32_natCast (by unfold pagingPageSize; omega)
      have mapped : (pagingMap tables.chunk (virtPage * pagingPageSize)
          (physPage * pagingPageSize) access).run kernel = .ok (0, middle) := by
        rw [pagingMap, if_neg (by simp only [Nat.mul_mod_left, ne_eq, not_true, or_self,
          not_false_eq_true]), Exec.bind_of_ok loaded]
        exact set
      have ahead : ∀ page : Nat, u32 ((page * pagingPageSize : Nat) + (pagingPageSize : Nat)) =
          u32 ((page + 1) * pagingPageSize : Nat) := by
        intro page
        rw [Nat.add_mul, Nat.one_mul, Nat.cast_add]
      obtain ⟨next, rest, map'', only'⟩ := ih (virtPage + 1) (physPage + 1) _ middle map'
        (by omega) (by omega)
      refine ⟨next, ?_, ?_, only.trans only'⟩
      · rw [pagingMapRange, virt, phys, Exec.bind_of_ok mapped, if_neg (by decide), ahead, ahead,
          rest]
      · rw [← mapPages_succ]
        exact map''

/-- **Mapping up to an address.** -/
theorem pagingMapTo_spec (small : flags < pagingPageSize) (access : Nat)
    (map : PageMap tables flags pages kernel) {count virtPage physPage : Nat}
    (virtInside : virtPage + count ≤ 1048576) (physInside : physPage + count ≤ 1048576)
    (virtWord : virtPage < 1048576) (physWord : physPage < 1048576) :
    ∃ next, (pagingMapTo tables.chunk (virtPage * pagingPageSize) (physPage * pagingPageSize)
        ((physPage + count) * pagingPageSize) access).run kernel = .ok (0, next) ∧
      PageMap tables flags (mapPages pages virtPage physPage count access) next ∧
      WritesOnly tables.owns kernel next := by
  obtain ⟨next, run, map', only⟩ := pagingMapRange_spec small access count virtPage physPage pages
    kernel map virtInside physInside
  refine ⟨next, ?_, map', only⟩
  have aligned : ∀ page : Nat, ¬ page * pagingPageSize % pagingPageSize ≠ 0 := by
    intro page
    rw [Nat.mul_mod_left]
    exact not_not.mpr rfl
  have pageCount : ((physPage + count) * pagingPageSize - physPage * pagingPageSize) /
      pagingPageSize = count := by
    rw [← Nat.sub_mul, Nat.add_sub_cancel_left, Nat.mul_div_cancel _ (by decide)]
  rw [pagingMapTo, if_neg (aligned _), if_neg (aligned _), if_neg (aligned _),
    if_neg (Nat.not_lt.mpr (Nat.mul_le_mul_right _ (Nat.le_add_right ..)))]
  dsimp only
  rw [pageCount, ← run, u32_natCast (by unfold pagingPageSize; omega),
    u32_natCast (by unfold pagingPageSize; omega)]

end Change

end Peachos
