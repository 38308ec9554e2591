import Peachos.Memory.PageLife

/-! # Address translation

Among any number of page directories, mapping a range of one of them changes the entries of
its pages and nothing else (`pagingMapTo_correct`).
-/

namespace Peachos

open CInt

/-- The entry of the page of an address. -/
def pageEntry (chunk virt : Nat) : K Nat := do
  let directory ← paging4gbChunkGetDirectory chunk
  pagingGet directory (pagingAlignToLowerPage virt)

/-- The physical address of an address. -/
def translate (chunk virt : Nat) : K Nat := do
  let directory ← paging4gbChunkGetDirectory chunk
  pagingGetPhysicalAddress directory virt

section Read

variable {tables : PageTables} {flags : Nat} {pages : Nat → Nat} {kernel : Kernel}

theorem pagingAlignToLowerPage_eq (virt : Nat) :
    pagingAlignToLowerPage virt = virt / pagingPageSize * pagingPageSize := by
  unfold pagingAlignToLowerPage pagingPageSize
  omega

/-- A page directory is read through its directory and one of its tables. -/
theorem pagingGet_run (map : PageMap tables flags pages kernel) (small : flags < pagingPageSize)
    {page : Nat} (inside : page < 1048576) :
    (pagingGet tables.directory (page * pagingPageSize)).run kernel = .ok (pages page, kernel) := by
  have index : page / pagingTotalEntriesPerTable < pagingTotalEntriesPerTable := by
    unfold pagingTotalEntriesPerTable
    omega
  have rest : page % pagingTotalEntriesPerTable < pagingTotalEntriesPerTable :=
    Nat.mod_lt _ (by decide)
  obtain ⟨directory, directoryHere, directoryEntries⟩ := map.directory
  obtain ⟨entries, tableHere, tableEntries⟩ := map.table _ index
  have loadedDirectory : (load Obj.dwords? tables.directory).run kernel = .ok (_, kernel) :=
    load_of_obj directoryHere rfl
  have loadedTable : (load Obj.dwords? (tables.table (page / pagingTotalEntriesPerTable))).run
      kernel = .ok (_, kernel) := load_of_obj tableHere rfl
  have address : entryAddress (directory (page / pagingTotalEntriesPerTable)) =
      tables.table (page / pagingTotalEntriesPerTable) := by
    rw [directoryEntries _ index]
    exact entryAddress_directory (map.aligned _ index) small (map.bounded _ index)
  rw [pagingGet, pagingGetIndexes_page]
  dsimp only
  rw [Exec.bind_of_ok loadedDirectory, address, Exec.bind_of_ok loadedTable, Exec.run_pure,
    tableEntries _ rest, Nat.mul_comm, Nat.div_add_mod]

theorem pageEntry_run (map : PageMap tables flags pages kernel) (small : flags < pagingPageSize)
    {virt : Nat} (word : virt < 4294967296) :
    (pageEntry tables.chunk virt).run kernel = .ok (pages (virt / pagingPageSize), kernel) := by
  have loaded : (paging4gbChunkGetDirectory tables.chunk).run kernel = .ok (_, kernel) :=
    load_of_obj map.chunk rfl
  rw [pageEntry, Exec.bind_of_ok loaded, pagingAlignToLowerPage_eq,
    pagingGet_run map small (by unfold pagingPageSize; omega)]

theorem translate_run (map : PageMap tables flags pages kernel) (small : flags < pagingPageSize)
    {virt : Nat} (word : virt < 4294967296) :
    (translate tables.chunk virt).run kernel =
      .ok (u32 (entryAddress (pages (virt / pagingPageSize)) + virt % pagingPageSize : Nat),
        kernel) := by
  have loaded : (paging4gbChunkGetDirectory tables.chunk).run kernel = .ok (_, kernel) :=
    load_of_obj map.chunk rfl
  have offset : virt - virt / pagingPageSize * pagingPageSize = virt % pagingPageSize := by
    unfold pagingPageSize
    omega
  have entry := pagingGet_run map small
    (show virt / pagingPageSize < 1048576 by unfold pagingPageSize; omega)
  rw [translate, Exec.bind_of_ok loaded, pagingGetPhysicalAddress, pagingAlignToLowerPage_eq,
    Exec.bind_of_ok entry, offset, Exec.run_pure]

end Read

/-- The arguments of `paging_map_to`: words, flags below the page size, and a range that ends
inside the address space. -/
structure MapArguments (virt phys physEnd flags : Nat) : Prop where
  virtWord : virt < 4294967296
  physWord : phys < 4294967296
  physEndWord : physEnd < 4294967296
  small : flags < pagingPageSize
  inside : virt + (physEnd - phys) ≤ 4294967296

/-- The chunks that `paging_new_4gb` has built, in states reached by building and mapping them
in any order with other allocations in between. -/
inductive PagingRun (region : KernelRegion) : List Nat → Kernel → Prop where
  | start {live : List Allocation} {kernel : Kernel} (inv : KernelInvariant region live kernel) :
      PagingRun region [] kernel
  | new {chunks : List Nat} {kernel next : Kernel} {flags chunk : Nat}
      (reached : PagingRun region chunks kernel) (byte : flags < 256)
      (run : (pagingNew4gb flags).run kernel = .ok (chunk, next)) :
      PagingRun region (chunk :: chunks) next
  | alloc {chunks : List Nat} {kernel next : Kernel} {size ptr : Nat} {contents : Obj}
      (reached : PagingRun region chunks kernel) (small : size ≤ 4294963200)
      (run : (kmalloc size contents).run kernel = .ok (ptr, next)) :
      PagingRun region chunks next
  | map {chunks : List Nat} {kernel next : Kernel} {chunk virt phys physEnd flags : Nat} {res : Int}
      (reached : PagingRun region chunks kernel) (member : chunk ∈ chunks)
      (arguments : MapArguments virt phys physEnd flags)
      (run : (pagingMapTo chunk virt phys physEnd flags).run kernel = .ok (res, next)) :
      PagingRun region chunks next

/-- Each chunk is a page directory of its own. -/
structure ChunksHeld (region : KernelRegion) (live : List Allocation) (records : List PageTables)
    (chunks : List Nat) (kernel : Kernel) : Prop where
  invariant : KernelInvariant region live kernel
  chunks : chunks = records.map PageTables.chunk
  owned : Owned PageTables.owns live records
  map : ∀ tables ∈ records, ∃ flags pages, flags < pagingPageSize ∧
    PageMap tables flags pages kernel

section Map

variable {region : KernelRegion} {live : List Allocation} {records : List PageTables}
  {chunks : List Nat} {kernel next : Kernel}

/-- Page directories stay in states that keep their objects. -/
theorem ChunksHeld.of_kept (held : ChunksHeld region live records chunks kernel)
    {live' : List Allocation} (inv : KernelInvariant region live' next) (grown : live ⊆ live')
    (kept : ∀ allocation ∈ live, next.objs allocation.ptr = kernel.objs allocation.ptr) :
    ChunksHeld region live' records chunks next where
  invariant := inv
  chunks := held.chunks
  owned := held.owned.grow grown
  map := by
    intro tables member
    obtain ⟨flags, pages, small, map⟩ := held.map tables member
    refine ⟨flags, pages, small, map.of_kept fun ptr own => ?_⟩
    obtain ⟨allocation, present, rfl⟩ := held.owned.held tables member ptr own
    exact kept allocation present

/-- A write to one page directory. -/
theorem ChunksHeld.write (held : ChunksHeld region live records chunks kernel)
    {tables : PageTables} (member : tables ∈ records) {flags : Nat} {pages : Nat → Nat}
    (small : flags < pagingPageSize) (map : PageMap tables flags pages next)
    (only : WritesOnly tables.owns kernel next) :
    ChunksHeld region live records chunks next where
  invariant := only.invariant held.invariant
  chunks := held.chunks
  owned := held.owned
  map := by
    intro other there
    by_cases same : other = tables
    · subst same
      exact ⟨flags, pages, small, map⟩
    · obtain ⟨flags', pages', small', map'⟩ := held.map other there
      refine ⟨flags', pages', small', map'.of_kept fun ptr own => ?_⟩
      exact only.kept ptr (held.owned.not_owns there member same own)

/-- A request that `paging_map_to` accepts. -/
def MapAccepted (virt phys physEnd : Nat) : Prop :=
  virt % pagingPageSize = 0 ∧ phys % pagingPageSize = 0 ∧ physEnd % pagingPageSize = 0 ∧
    phys ≤ physEnd

instance (virt phys physEnd : Nat) : Decidable (MapAccepted virt phys physEnd) :=
  inferInstanceAs (Decidable (_ ∧ _ ∧ _ ∧ _))

/-- A refused request changes nothing. -/
theorem pagingMapTo_refused {chunk virt phys physEnd flags : Nat}
    (refused : ¬ MapAccepted virt phys physEnd) :
    (pagingMapTo chunk virt phys physEnd flags).run kernel = .ok (-einvagr, kernel) := by
  unfold MapAccepted at refused
  rw [pagingMapTo]
  split
  · rfl
  · split
    · rfl
    · split
      · rfl
      · split
        · rfl
        · omega

/-- **One accepted request.** -/
theorem pagingMapTo_accepted {tables : PageTables} {dirFlags : Nat} {pages : Nat → Nat}
    (small : dirFlags < pagingPageSize) (map : PageMap tables dirFlags pages kernel)
    {virt phys physEnd flags : Nat} (arguments : MapArguments virt phys physEnd flags)
    (accepted : MapAccepted virt phys physEnd) :
    ∃ next, (pagingMapTo tables.chunk virt phys physEnd flags).run kernel = .ok (0, next) ∧
      PageMap tables dirFlags (mapPages pages (virt / pagingPageSize) (phys / pagingPageSize)
        ((physEnd - phys) / pagingPageSize) flags) next ∧
      WritesOnly tables.owns kernel next := by
  obtain ⟨virtAligned, physAligned, endAligned, ordered⟩ := accepted
  have virtWord := arguments.virtWord
  have physWord := arguments.physWord
  have physEndWord := arguments.physEndWord
  have inside := arguments.inside
  have virtPage : virt / pagingPageSize * pagingPageSize = virt :=
    Nat.div_mul_cancel (Nat.dvd_of_mod_eq_zero virtAligned)
  have physPage : phys / pagingPageSize * pagingPageSize = phys :=
    Nat.div_mul_cancel (Nat.dvd_of_mod_eq_zero physAligned)
  have rangePages : pagingPageSize ∣ physEnd - phys :=
    Nat.dvd_sub (Nat.dvd_of_mod_eq_zero endAligned) (Nat.dvd_of_mod_eq_zero physAligned)
  have endPage : (phys / pagingPageSize + (physEnd - phys) / pagingPageSize) * pagingPageSize =
      physEnd := by
    rw [Nat.add_mul, physPage, Nat.div_mul_cancel rangePages, Nat.add_sub_cancel' ordered]
  obtain ⟨next, run, map', only⟩ := pagingMapTo_spec small flags map
    (show virt / pagingPageSize + (physEnd - phys) / pagingPageSize ≤ 1048576 by
      unfold pagingPageSize at *; omega)
    (show phys / pagingPageSize + (physEnd - phys) / pagingPageSize ≤ 1048576 by
      unfold pagingPageSize at *; omega)
    (by unfold pagingPageSize; omega) (by unfold pagingPageSize; omega)
  rw [virtPage, physPage, endPage] at run
  exact ⟨next, run, map', only⟩

/-- Building, mapping and other allocations keep the page directories apart. -/
theorem PagingRun.held (reached : PagingRun region chunks kernel) :
    ∃ live records, ChunksHeld region live records chunks kernel := by
  induction reached with
  | start inv => exact ⟨_, [], inv, rfl, .nil, nofun⟩
  | @new chunks kernel next flags chunk reached byte run ih =>
      obtain ⟨live, records, held⟩ := ih
      obtain ⟨live', tables, rfl, _, extended, map⟩ := pagingNew4gb_spec held.invariant run
      have grown := held.of_kept extended.invariant extended.grown extended.kept
      refine ⟨live', tables :: records, extended.invariant, ?_, held.owned.cons extended, ?_⟩
      · rw [List.map_cons, held.chunks]
      · intro other member
        rcases List.mem_cons.mp member with rfl | old
        · exact ⟨flags, _, byte.trans (by decide), map⟩
        · exact grown.map other old
  | @alloc chunks kernel next size ptr contents reached small run ih =>
      obtain ⟨live, records, held⟩ := ih
      rcases kmalloc_completed held.invariant small run with ⟨_, rfl⟩ | ⟨_, placed⟩ | ⟨_, placed⟩
      · exact ⟨live, records, held⟩
      · exact ⟨live, records, held.of_kept placed.invariant placed.grown placed.kept⟩
      · exact ⟨_, records, held.of_kept placed.invariant placed.grown placed.kept⟩
  | @map chunks kernel next chunk virt phys physEnd flags res reached member arguments run ih =>
      obtain ⟨live, records, held⟩ := ih
      rw [held.chunks] at member
      obtain ⟨tables, here, rfl⟩ := List.mem_map.mp member
      obtain ⟨dirFlags, pages, small, map⟩ := held.map tables here
      by_cases accepted : MapAccepted virt phys physEnd
      · obtain ⟨_, run', map', only⟩ := pagingMapTo_accepted small map arguments accepted
        rw [run] at run'
        cases run'
        exact ⟨live, records, held.write here small map' only⟩
      · rw [pagingMapTo_refused accepted] at run
        cases run
        exact ⟨live, records, held⟩

/-- An address has the same entry in both states. -/
def SameEntry (kernel next : Kernel) (chunk virt : Nat) : Prop :=
  ∃ entry, (pageEntry chunk virt).run kernel = .ok (entry, kernel) ∧
    (pageEntry chunk virt).run next = .ok (entry, next)

/-- The outcome of a request: when accepted it returns 0, sends the addresses of the range to
the physical range with exactly the given flags, and keeps every other entry of every chunk;
otherwise it fails and changes nothing. -/
def MapsExactly (chunks : List Nat) (kernel : Kernel) (chunk virt phys physEnd flags : Nat) :
    Prop :=
  if MapAccepted virt phys physEnd then
    ∃ next, (pagingMapTo chunk virt phys physEnd flags).run kernel = .ok (0, next) ∧
      (∀ address, virt ≤ address → address < virt + (physEnd - phys) →
        (translate chunk address).run next = .ok (phys + (address - virt), next) ∧
        ∃ entry, (pageEntry chunk address).run next = .ok (entry, next) ∧
          entry % pagingPageSize = flags) ∧
      (∀ address < 4294967296, ¬ (virt ≤ address ∧ address < virt + (physEnd - phys)) →
        SameEntry kernel next chunk address) ∧
      ∀ other ∈ chunks, other ≠ chunk → ∀ address < 4294967296,
        SameEntry kernel next other address
  else ∃ code, code < 0 ∧ (pagingMapTo chunk virt phys physEnd flags).run kernel = .ok (code, kernel)

/-- **Mapping is exact.** -/
theorem pagingMapTo_correct (reached : PagingRun region chunks kernel) {chunk : Nat}
    (member : chunk ∈ chunks) {virt phys physEnd flags : Nat}
    (arguments : MapArguments virt phys physEnd flags) :
    MapsExactly chunks kernel chunk virt phys physEnd flags := by
  unfold MapsExactly
  split
  next accepted =>
    obtain ⟨live, records, held⟩ := reached.held
    rw [held.chunks] at member
    obtain ⟨tables, here, rfl⟩ := List.mem_map.mp member
    obtain ⟨dirFlags, pages, small, map⟩ := held.map tables here
    obtain ⟨next, run, map', only⟩ := pagingMapTo_accepted small map arguments accepted
    obtain ⟨virtAligned, physAligned, endAligned, ordered⟩ := accepted
    have virtWord := arguments.virtWord
    have physEndWord := arguments.physEndWord
    have inside := arguments.inside
    refine ⟨next, run, ?_, ?_, ?_⟩
    · intro address after before
      have word : address < 4294967296 := by omega
      have here : mapPages pages (virt / pagingPageSize) (phys / pagingPageSize)
          ((physEnd - phys) / pagingPageSize) flags (address / pagingPageSize) =
            (phys + (address - virt)) / pagingPageSize * pagingPageSize ||| flags := by
        unfold mapPages
        rw [if_pos (by unfold pagingPageSize at *; omega)]
        congr 2
        unfold pagingPageSize at *
        omega
      have frame : (phys + (address - virt)) / pagingPageSize * pagingPageSize + pagingPageSize ≤
          4294967296 := by
        unfold pagingPageSize at *
        omega
      rw [translate_run map' small word, pageEntry_run map' small word, here,
        entryAddress_or (Nat.mul_mod_left _ _) arguments.small frame]
      refine ⟨?_, _, rfl, entryFlags_or (Nat.mul_mod_left _ _) arguments.small⟩
      rw [u32_natCast (by unfold pagingPageSize at *; omega)]
      congr 2
      unfold pagingPageSize at *
      omega
    · intro address word outside
      refine ⟨_, pageEntry_run map small word, ?_⟩
      rw [pageEntry_run map' small word]
      unfold mapPages
      rw [if_neg (by unfold pagingPageSize at *; omega)]
    · intro other there different address word
      rw [held.chunks] at there
      obtain ⟨tables', here', rfl⟩ := List.mem_map.mp there
      obtain ⟨flags', pages', small', old⟩ := held.map tables' here'
      have apart : tables' ≠ tables := fun same => different (congrArg PageTables.chunk same)
      have still := old.of_kept fun ptr own =>
        only.kept ptr (held.owned.not_owns here' here apart own)
      exact ⟨_, pageEntry_run old small' word, pageEntry_run still small' word⟩
  next refused => exact ⟨-einvagr, by decide, pagingMapTo_refused refused⟩

/-- Mapping two pages of the second of two page directories of the booted kernel. -/
theorem pagingMapTo_correct_boot : ∃ first second kernel,
    MapsExactly [second, first] kernel second 0x400000 0x1000000 0x1002000 7 := by
  obtain ⟨first, _, _, run₁, packed⟩ := @pagingNew4gb_packed _ 5 _ _ _
    (freshKernel_packed kernelHeapRegion) (by decide)
  obtain ⟨second, _, kernel, run₂, _⟩ := @pagingNew4gb_packed _ 7 _ _ _ packed (by decide)
  exact ⟨first, second, kernel, pagingMapTo_correct
    (.new (.new (.start (freshKernel_invariant kernelHeapRegion)) (by decide) run₁) (by decide) run₂)
    List.mem_cons_self ⟨by decide, by decide, by decide, by decide, by decide⟩⟩

end Map

end Peachos
