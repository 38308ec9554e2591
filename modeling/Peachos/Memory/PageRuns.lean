import Peachos.Kernel.Release
import Peachos.Memory.Translation

/-! # The life of a page directory

A new page directory maps every address to itself (`pagingNew4gb_identity`). Whatever is mapped in
it afterwards, its directory entries stay, so `paging_free_4gb` frees the blocks that
`paging_new_4gb` allocated, each of them once (`pagingFree4gb_once`).
-/

namespace Peachos

open CInt

/-- The address is translated to itself, by an entry with exactly the given flags. -/
def MapsToItself (chunk flags virt : Nat) (kernel : Kernel) : Prop :=
  (translate chunk virt).run kernel = .ok (virt, kernel) ∧
    ∃ entry, (pageEntry chunk virt).run kernel = .ok (entry, kernel) ∧
      entry % pagingPageSize = flags

/-- **A new page directory.** Once its allocations have succeeded, it maps each of the `2 ^ 32`
addresses to itself. -/
theorem pagingNew4gb_identity {region : KernelRegion} {live : List Allocation}
    {kernel next : Kernel} {flags chunk : Nat} (inv : KernelInvariant region live kernel)
    (byte : flags < 256) (run : (pagingNew4gb flags).run kernel = .ok (chunk, next)) {virt : Nat}
    (word : virt < 4294967296) : MapsToItself chunk flags virt next := by
  have small : flags < pagingPageSize := byte.trans (by decide)
  obtain ⟨_, tables, rfl, _, _, map⟩ := pagingNew4gb_spec inv run
  have aligned : virt / pagingPageSize * pagingPageSize % pagingPageSize = 0 :=
    Nat.mul_mod_left _ _
  have frame : virt / pagingPageSize * pagingPageSize + pagingPageSize ≤ 4294967296 := by
    unfold pagingPageSize
    omega
  refine ⟨?_, _, pageEntry_run map small word, entryFlags_or aligned small⟩
  rw [translate_run map small word, identityPages, entryAddress_or aligned small frame]
  simp [Nat.div_add_mod', u32_natCast word]

/-- The page directory that the booted kernel makes for a task, at the highest address. -/
theorem pagingNew4gb_identity_boot : ∃ chunk next,
    (pagingNew4gb 5).run bootKernel = .ok (chunk, next) ∧ MapsToItself chunk 5 4294967295 next := by
  obtain ⟨chunk, _, next, run, _⟩ := @pagingNew4gb_packed _ 5 _ _ _
    (freshKernel_packed kernelHeapRegion) (by decide)
  exact ⟨chunk, next, run,
    pagingNew4gb_identity (freshKernel_invariant kernelHeapRegion) (by decide) run (by decide)⟩

/-- A call that sets entries of a page directory. -/
inductive MappingCall where
  | set (virt val : UInt32)
  | map (virt phys flags : UInt32)
  | mapRange (virt phys : UInt32) (count : Int) (flags : UInt32)
  | mapTo (virt phys physEnd flags : UInt32)
  deriving DecidableEq

/-- Make the call on a chunk. -/
def MappingCall.perform (chunk : Nat) : MappingCall → K Int
  | .set virt val => do
      let directory ← paging4gbChunkGetDirectory chunk
      pagingSet directory virt.toNat val.toNat
  | .map virt phys flags => pagingMap chunk virt.toNat phys.toNat flags.toNat
  | .mapRange virt phys count flags =>
      pagingMapRange chunk count.toNat virt.toNat phys.toNat flags.toNat 0
  | .mapTo virt phys physEnd flags =>
      pagingMapTo chunk virt.toNat phys.toNat physEnd.toNat flags.toNat

/-- Make the calls one after the other, whatever they answer. -/
def performAll (chunk : Nat) : List MappingCall → K Unit
  | [] => pure ()
  | call :: calls => do
      let _ ← call.perform chunk
      performAll chunk calls

section Mapping

variable {tables : PageTables} {flags : Nat} {pages : Nat → Nat} {kernel : Kernel}

/-- The program answers and keeps the page directory, with some entries of its tables changed. -/
def KeepsDirectory (tables : PageTables) (flags : Nat) (kernel : Kernel) (program : K Int) :
    Prop :=
  ∃ res pages next, program.run kernel = .ok (res, next) ∧ PageMap tables flags pages next ∧
    WritesOnly tables.owns kernel next

theorem KeepsDirectory.pure (map : PageMap tables flags pages kernel) (res : Int) :
    KeepsDirectory tables flags kernel (Pure.pure res) :=
  ⟨res, pages, kernel, Exec.run_pure _ _, map, .refl kernel⟩

/-- Setting any entry. -/
theorem pagingSet_keeps (map : PageMap tables flags pages kernel) (small : flags < pagingPageSize)
    {virt : Nat} (word : virt < 4294967296) (val : Nat) :
    KeepsDirectory tables flags kernel (pagingSet tables.directory virt val) := by
  by_cases aligned : pagingIsAligned virt = true
  · have whole : virt / pagingPageSize * pagingPageSize = virt :=
      Nat.div_mul_cancel (Nat.dvd_of_mod_eq_zero (beq_iff_eq.mp aligned))
    obtain ⟨next, run, map', only⟩ := pagingSet_spec map small
      (show virt / pagingPageSize < 1048576 by unfold pagingPageSize; omega) val
    rw [whole] at run
    exact ⟨0, _, next, run, map', only⟩
  · have refused : pagingSet tables.directory virt val = Pure.pure (-einvagr) := by
      simp [pagingSet, aligned]
    rw [refused]
    exact .pure map _

/-- Mapping any page to any frame. -/
theorem pagingMap_keeps (map : PageMap tables flags pages kernel) (small : flags < pagingPageSize)
    {virt : Nat} (word : virt < 4294967296) (phys access : Nat) :
    KeepsDirectory tables flags kernel (pagingMap tables.chunk virt phys access) := by
  by_cases unaligned : virt % pagingPageSize ≠ 0 ∨ phys % pagingPageSize ≠ 0
  · rw [pagingMap, if_pos unaligned]
    exact .pure map _
  · have loaded : (load Obj.chunk? tables.chunk).run kernel = .ok (_, kernel) :=
      load_of_obj map.chunk rfl
    obtain ⟨res, pages', next, run, kept⟩ := pagingSet_keeps map small word (phys ||| access)
    refine ⟨res, pages', next, ?_, kept⟩
    rw [pagingMap, if_neg unaligned, Exec.bind_of_ok loaded, run]

/-- Mapping any range, also one that wraps around. -/
theorem pagingMapRange_keeps (small : flags < pagingPageSize) (access : Nat) :
    ∀ (count virt phys : Nat) (res : Int) (pages : Nat → Nat) (kernel : Kernel),
      PageMap tables flags pages kernel → virt < 4294967296 →
      KeepsDirectory tables flags kernel
        (pagingMapRange tables.chunk count virt phys access res) := by
  intro count
  induction count with
  | zero => exact fun virt phys res pages kernel map _ => .pure map res
  | succ count ih =>
      intro virt phys res pages kernel map word
      obtain ⟨res', pages', middle, mapped, map', only⟩ :=
        pagingMap_keeps map small word phys access
      by_cases failed : res' < 0
      · refine ⟨res', pages', middle, ?_, map', only⟩
        rw [pagingMapRange, Exec.bind_of_ok mapped, if_pos failed, Exec.run_pure]
      · obtain ⟨res'', pages'', next, rest, map'', only'⟩ :=
          ih _ (u32 (phys + pagingPageSize)) res' pages' middle map' (u32_lt (virt + pagingPageSize))
        refine ⟨res'', pages'', next, ?_, map'', only.trans only'⟩
        rw [pagingMapRange, Exec.bind_of_ok mapped, if_neg failed, rest]

/-- **One call.** -/
theorem MappingCall.keeps (map : PageMap tables flags pages kernel)
    (small : flags < pagingPageSize) (call : MappingCall) :
    KeepsDirectory tables flags kernel (call.perform tables.chunk) := by
  cases call with
  | set virt val =>
      have loaded : (paging4gbChunkGetDirectory tables.chunk).run kernel = .ok (_, kernel) :=
        load_of_obj map.chunk rfl
      obtain ⟨res, pages', next, run, kept⟩ :=
        pagingSet_keeps map small virt.toNat_lt val.toNat
      refine ⟨res, pages', next, ?_, kept⟩
      rw [perform, Exec.bind_of_ok loaded, run]
  | map virt phys access => exact pagingMap_keeps map small virt.toNat_lt _ _
  | mapRange virt phys count access =>
      exact pagingMapRange_keeps small _ _ _ _ _ _ _ map virt.toNat_lt
  | mapTo virt phys physEnd access =>
      change KeepsDirectory tables flags kernel (pagingMapTo tables.chunk virt.toNat phys.toNat
        physEnd.toNat access.toNat)
      unfold pagingMapTo
      split
      · exact .pure map _
      split
      · exact .pure map _
      split
      · exact .pure map _
      split
      · exact .pure map _
      exact pagingMapRange_keeps small _ _ _ _ _ _ _ map virt.toNat_lt

/-- **Any run of calls.** -/
theorem performAll_keeps (small : flags < pagingPageSize) (calls : List MappingCall) :
    ∀ (pages : Nat → Nat) (kernel : Kernel), PageMap tables flags pages kernel →
      ∃ pages' next, (performAll tables.chunk calls).run kernel = .ok ((), next) ∧
        PageMap tables flags pages' next ∧ WritesOnly tables.owns kernel next := by
  induction calls with
  | nil => exact fun pages kernel map => ⟨pages, kernel, rfl, map, .refl kernel⟩
  | cons call calls ih =>
      intro pages kernel map
      obtain ⟨res, pages', middle, performed, map', only⟩ := call.keeps map small
      obtain ⟨pages'', next, rest, map'', only'⟩ := ih pages' middle map'
      refine ⟨pages'', next, ?_, map'', only.trans only'⟩
      rw [performAll, Exec.bind_of_ok performed, rest]

end Mapping

/-- The blocks of a page directory, in the order in which they are freed. -/
def PageTables.blocks (tables : PageTables) : List Nat :=
  (List.range' 0 pagingTotalEntriesPerTable).map tables.table ++ [tables.directory, tables.chunk]

section Release

variable {tables : PageTables} {flags : Nat} {pages : Nat → Nat} {kernel next : Kernel}

theorem PageTables.mem_blocks {ptr : Nat} : ptr ∈ tables.blocks ↔ tables.owns ptr := by
  simp only [blocks, owns, List.mem_append, List.mem_map, List.mem_range'_1, List.mem_cons,
    List.not_mem_nil, or_false, Nat.zero_le, true_and, Nat.zero_add, @eq_comm _ _ ptr]
  constructor
  · rintro (table | directory | chunk)
    · exact .inr (.inr table)
    · exact .inr (.inl directory)
    · exact .inl chunk
  · rintro (chunk | directory | table)
    · exact .inr (.inr chunk)
    · exact .inr (.inl directory)
    · exact .inl table

/-- The blocks of a page directory are different ones. -/
theorem PageMap.blocks_nodup (map : PageMap tables flags pages kernel) : tables.blocks.Nodup := by
  obtain ⟨entries, here, _⟩ := map.directory
  have apart : tables.directory ≠ tables.chunk := Kernel.ne_of_objs here map.chunk nofun
  refine List.nodup_append.mpr ⟨?_, by simp [apart], ?_⟩
  · refine List.Nodup.map_on ?_ List.nodup_range'
    intro i first j second same
    rw [List.mem_range'_1] at first second
    exact map.apart i (by omega) j (by omega) same
  · intro table listed ptr other same
    obtain ⟨i, inside, rfl⟩ := List.mem_map.mp listed
    rw [List.mem_range'_1] at inside
    rcases List.mem_cons.mp other with rfl | last
    · exact map.notDirectory i (by omega) same
    · rw [List.mem_singleton] at last
      exact map.chunk_ne_table (show i < _ by omega) (last.symm.trans same.symm)

/-- The loop frees the tables that the directory names. -/
theorem pagingFree4gbLoop_eq (map : PageMap tables flags pages kernel)
    (small : flags < pagingPageSize) {entries : Nat → Nat}
    (values : ∀ i < pagingTotalEntriesPerTable,
      entries i = tables.table i ||| flags ||| pagingIsWriteable) :
    ∀ (count i : Nat) (middle : Kernel), i + count = pagingTotalEntriesPerTable →
      middle.objs tables.chunk = some (.chunk tables.directory) →
      middle.objs tables.directory = some (.dwords entries) →
      (pagingFree4gbLoop tables.chunk count i).run middle =
        (kfreeAll ((List.range' i count).map tables.table)).run middle := by
  intro count
  induction count with
  | zero => exact fun _ _ _ _ _ => rfl
  | succ count ih =>
      intro i middle reached chunkHere directoryHere
      have inside : i < pagingTotalEntriesPerTable := by omega
      have loadedChunk : (load Obj.chunk? tables.chunk).run middle = .ok (_, middle) :=
        load_of_obj chunkHere rfl
      have loadedDirectory : (load Obj.dwords? tables.directory).run middle = .ok (_, middle) :=
        load_of_obj directoryHere rfl
      rw [pagingFree4gbLoop, Exec.bind_of_ok loadedChunk, Exec.bind_of_ok loadedDirectory,
        values i inside, entryAddress_directory (map.aligned i inside) small
          (map.bounded i inside), List.range'_succ, List.map_cons, kfreeAll]
      refine Exec.bind_congr fun _ last freed => ih (i + 1) last (by omega) ?_ ?_
      · rw [kfree_kept freed (map.chunk_ne_table inside), chunkHere]
      · rw [kfree_kept freed (map.notDirectory i inside).symm, directoryHere]

/-- `paging_free_4gb` frees the blocks of the page directory in order. -/
theorem pagingFree4gb_eq (map : PageMap tables flags pages kernel)
    (small : flags < pagingPageSize) :
    (pagingFree4gb tables.chunk).run kernel = (kfreeAll tables.blocks).run kernel := by
  obtain ⟨entries, present, values⟩ := map.directory
  have loop := pagingFree4gbLoop_eq map small values pagingTotalEntriesPerTable 0 kernel
    (by omega) map.chunk present
  have outside : tables.chunk ∉ (List.range' 0 pagingTotalEntriesPerTable).map tables.table := by
    intro listed
    obtain ⟨i, inside, same⟩ := List.mem_map.mp listed
    rw [List.mem_range'_1] at inside
    exact map.chunk_ne_table (show i < _ by omega) same.symm
  rw [PageTables.blocks, kfreeAll_append, pagingFree4gb, Exec.bind_run_eq loop]
  refine Exec.bind_congr fun _ middle freed => ?_
  have chunkHere := (kfreeAll_kept freed _ outside).trans map.chunk
  have loaded : (load Obj.chunk? tables.chunk).run middle = .ok (_, middle) :=
    load_of_obj chunkHere rfl
  rw [Exec.bind_of_ok loaded, kfreeAll]
  exact Exec.bind_congr fun _ last _ => (kfreeAll_singleton tables.chunk last).symm

end Release

section Once

variable {region : KernelRegion} {live live' : List Allocation}

/-- Freeing the page directory frees `blocks`, each of them once. They are those that were
allocated from `kernel` to `made`, and all that is live again is what was live in `kernel`. -/
structure FreedOnce (region : KernelRegion) (live : List Allocation) (kernel made mapped : Kernel)
    (chunk : Nat) (blocks : List Nat) : Prop where
  allocated : ∃ live', Extended region live live' kernel made fun ptr => ptr ∈ blocks
  once : blocks.Nodup
  frees : (pagingFree4gb chunk).run mapped = (kfreeAll blocks).run mapped
  restored : ∃ final, (pagingFree4gb chunk).run mapped = .ok ((), final) ∧
    final.heap = kernel.heap ∧ KernelInvariant region live final

/-- **The blocks of a page directory.** After any calls on a new chunk, which all answer,
`paging_free_4gb` frees exactly the blocks that `paging_new_4gb` allocated. -/
theorem pagingFree4gb_once {kernel made : Kernel} {flags chunk : Nat}
    (inv : KernelInvariant region live kernel) (byte : flags < 256)
    (new : (pagingNew4gb flags).run kernel = .ok (chunk, made)) (calls : List MappingCall) :
    ∃ mapped blocks, (performAll chunk calls).run made = .ok ((), mapped) ∧
      FreedOnce region live kernel made mapped chunk blocks := by
  have small : flags < pagingPageSize := byte.trans (by decide)
  obtain ⟨live', tables, rfl, _, extended, map⟩ := pagingNew4gb_spec inv new
  obtain ⟨pages, mapped, performed, map', only⟩ := performAll_keeps small calls _ made map
  obtain ⟨live'', final, freed, released⟩ :=
    pagingFree4gb_spec (only.invariant extended.invariant) small map'
  obtain ⟨heap, restored⟩ := extended.restored inv released
  refine ⟨mapped, tables.blocks, performed, ⟨live', extended.congr fun ptr => ?_⟩,
    map'.blocks_nodup, pagingFree4gb_eq map' small, final, freed, heap, restored⟩
  exact PageTables.mem_blocks.symm

/-- Three calls on the page directory that the booted kernel makes for a task, the second of them
refused and the third one a range that wraps around. -/
theorem pagingFree4gb_once_boot : ∃ chunk made mapped blocks,
    (pagingNew4gb 5).run bootKernel = .ok (chunk, made) ∧
    (performAll chunk [.set 0x400000 0xFFFFFFFF, .map 0x400001 0 7,
      .mapRange 0xFFFFF000 0x1000000 2 7]).run made = .ok ((), mapped) ∧
    FreedOnce kernelHeapRegion [] bootKernel made mapped chunk blocks := by
  obtain ⟨chunk, _, made, new, _⟩ := @pagingNew4gb_packed _ 5 _ _ _
    (freshKernel_packed kernelHeapRegion) (by decide)
  obtain ⟨mapped, blocks, performed, once⟩ := pagingFree4gb_once
    (freshKernel_invariant kernelHeapRegion) (by decide) new [.set 0x400000 0xFFFFFFFF,
      .map 0x400001 0 7, .mapRange 0xFFFFF000 0x1000000 2 7]
  exact ⟨chunk, made, mapped, blocks, new, performed, once⟩

end Once

end Peachos
