import Peachos.Kernel.Boot

/-! # Freeing any pointer

`heap_free` turns its pointer into a signed block number and tests only the upper end of it. A
pointer a block or more below the heap gives a negative number, and the table is accessed there;
every other pointer stays inside the table. Null is such a pointer for every heap in the lower half
of the address space but one at address zero.
-/

namespace Peachos

open CInt

section Blocks

variable {heap : Heap} {ptr : Nat}

/-- The block number of a pointer is negative a block below the heap. -/
theorem heapAddressToBlock_neg_iff :
    heapAddressToBlock heap ptr < 0 ↔ i32 ((ptr : Int) - heap.saddr) ≤ -4096 := by
  unfold heapAddressToBlock
  generalize i32 ((ptr : Int) - heap.saddr) = distance
  rcases Int.le_total 0 distance with above | below
  · rw [Int.tdiv_eq_ediv_of_nonneg above]
    unfold peachosHeapBlockSize
    omega
  · obtain ⟨depth, rfl⟩ : ∃ depth, distance = -depth := ⟨-distance, (Int.neg_neg _).symm⟩
    rw [Int.neg_tdiv, Int.tdiv_eq_ediv_of_nonneg (by omega)]
    unfold peachosHeapBlockSize
    omega

/-- From a block of the table on, the loop stays inside the table. -/
theorem heapMarkBlocksFreeLoop_inside :
    ∀ (count i : Nat) (heap : Heap), i + count = heap.table.total →
      ∃ next, (heapMarkBlocksFreeLoop count i).run heap = .ok ((), next) := by
  intro count
  induction count with
  | zero =>
      intro i heap _
      exact ⟨heap, rfl⟩
  | succ count ih =>
      intro i heap reached
      have inside : i < heap.table.entries.length := by
        change i < heap.table.total
        omega
      have entry := List.getElem?_eq_getElem inside
      obtain ⟨middle, wrote, frame, _, _⟩ := writeEntry_spec inside heapBlockTableEntryFree
      rw [heapMarkBlocksFreeLoop, Exec.bind_of_ok (readEntry_at entry), Exec.bind_of_ok wrote]
      by_cases last : heap.table.entries[i] &&& heapBlockHasNext = 0
      · rw [if_pos last]
        exact ⟨middle, rfl⟩
      · rw [if_neg last]
        exact ih (i + 1) middle (by rw [frame.total]; omega)

/-- A pointer below the heap: the table is read at a negative index. -/
theorem heapFree_below (below : heapAddressToBlock heap ptr < 0)
    (small : heap.table.total < 2147483648) :
    (heapFree ptr).run heap = .error (.tableIndex (heapAddressToBlock heap ptr)) := by
  obtain ⟨count, some⟩ : ∃ count,
      ((heap.table.total : Int) - heapAddressToBlock heap ptr).toNat = count + 1 :=
    ⟨_, (Nat.succ_pred (by omega)).symm⟩
  have refused : (readEntry (heapAddressToBlock heap ptr)).run heap =
      .error (.tableIndex (heapAddressToBlock heap ptr)) := by
    simp only [readEntry, Exec.demand, Exec.run_of, if_neg (not_le.mpr below)]
  rw [heapFree, Exec.bind_of_ok (Exec.run_read _ _), heapMarkBlocksFree,
    Exec.bind_of_ok (Exec.run_read _ _), i32_natCast small, some, heapMarkBlocksFreeLoop,
    Exec.bind_of_error refused]

/-- A pointer past the heap changes nothing. -/
theorem heapFree_past (past : (heap.table.total : Int) ≤ heapAddressToBlock heap ptr)
    (small : heap.table.total < 2147483648) : (heapFree ptr).run heap = .ok ((), heap) := by
  have none : ((heap.table.total : Int) - heapAddressToBlock heap ptr).toNat = 0 := by omega
  rw [heapFree, Exec.bind_of_ok (Exec.run_read _ _), heapMarkBlocksFree,
    Exec.bind_of_ok (Exec.run_read _ _), i32_natCast small, none, heapMarkBlocksFreeLoop,
    Exec.run_pure]

theorem heapFree_inside (above : 0 ≤ heapAddressToBlock heap ptr)
    (small : heap.table.total < 2147483648) :
    ∃ next, (heapFree ptr).run heap = .ok ((), next) := by
  rcases Int.le_total heap.table.total (heapAddressToBlock heap ptr) with past | before
  · exact ⟨heap, heapFree_past past small⟩
  · obtain ⟨block, same⟩ := Int.eq_ofNat_of_zero_le above
    rw [heapFree, Exec.bind_of_ok (Exec.run_read _ _), heapMarkBlocksFree,
      Exec.bind_of_ok (Exec.run_read _ _), i32_natCast small, same]
    exact heapMarkBlocksFreeLoop_inside _ block heap (by omega)

end Blocks

/-- A call of `heap_free` accesses no entry outside the table, and null changes none. -/
structure FreeSafe (heap : Heap) (ptr : Nat) : Prop where
  inside : ∃ next, (heapFree ptr).run heap = .ok ((), next)
  null : ptr = 0 → ∀ next, (heapFree ptr).run heap = .ok ((), next) → next.table = heap.table

section Pointers

variable {region : HeapRegion} {live : List Allocation} {heap : Heap} {ptr : Nat}

/-- Null changes nothing in a heap that starts at address zero and has no allocation there. -/
theorem heapFree_null_start (inv : HeapInvariant region live heap) (start : region.start = 0)
    (free : ∀ allocation ∈ live, allocation.ptr ≠ 0) :
    (heapFree 0).run heap = .ok ((), heap) := by
  have bound := inv.total_lt
  rcases Nat.eq_zero_or_pos heap.table.total with empty | some
  · apply heapFree_past _ (by omega)
    have first : heapAddressToBlock heap 0 = 0 := by
      unfold heapAddressToBlock
      rw [inv.saddr, start]
      rfl
    omega
  · have unowned : heap.isFree 0 = true := by
      apply (inv.isFree_iff some).mpr
      intro allocation member covers
      have placed := inv.placed allocation member
      refine free allocation member ?_
      rw [placed, start, Nat.le_zero.mp covers.1, Nat.mul_zero]
    have run := heapFree_of_free inv unowned
    rwa [start] at run

/-- Null is past a heap in the upper half of the address space. -/
theorem heapAddressToBlock_null (inv : HeapInvariant region live heap)
    (high : 2147483648 < region.start) :
    (heap.table.total : Int) ≤ heapAddressToBlock heap 0 := by
  have total := inv.total
  have addressable := region.addressable
  have distance : i32 (((0 : Nat) : Int) - region.start) = 4294967296 - region.start := by
    unfold i32
    omega
  unfold heapAddressToBlock peachosHeapBlockSize at *
  rw [inv.saddr, distance, Int.tdiv_eq_ediv_of_nonneg (by omega)]
  omega

/-- **Freeing any pointer.** The table is accessed inside its bounds exactly for the pointers that
are less than a block below the heap; null then changes nothing unless it is itself the address of
an allocation. -/
theorem heapFree_safe_iff (inv : HeapInvariant region live heap) :
    FreeSafe heap ptr ↔ -4096 < i32 ((ptr : Int) - region.start) ∧
      (ptr = 0 → region.start = 0 → ∀ allocation ∈ live, allocation.ptr ≠ 0) := by
  have bound := inv.total_lt
  have sign := @heapAddressToBlock_neg_iff heap ptr
  rw [inv.saddr] at sign
  constructor
  · intro safe
    refine ⟨?_, ?_⟩
    · by_contra far
      obtain ⟨next, run⟩ := safe.inside
      rw [heapFree_below (sign.mpr (not_lt.mp far)) (by omega)] at run
      cases run
    · rintro rfl _ allocation member null
      obtain ⟨next, run, entries, _⟩ := heapFree_spec inv member
      rw [null] at run
      have covers : (region.extent allocation).Covers (region.extent allocation).start :=
        ⟨le_rfl, Nat.lt_add_of_pos_right (inv.extent_nonempty member)⟩
      have cleared := entries (region.extent allocation).start
      rw [if_pos covers, safe.null rfl next run,
        inv.encodes.taken allocation member _ covers] at cleared
      exact blockEntry_taken _ _ (by rw [Option.some.inj cleared]; rfl)
  · rintro ⟨near, free⟩
    have above : 0 ≤ heapAddressToBlock heap ptr := by
      by_contra below
      exact absurd near (not_lt.mpr (sign.mp (not_le.mp below)))
    refine ⟨heapFree_inside above (by omega), ?_⟩
    rintro rfl next run
    have unchanged : (heapFree 0).run heap = .ok ((), heap) := by
      by_cases start : region.start = 0
      · exact heapFree_null_start inv start (free rfl start)
      · have aligned := region.startAligned
        have addressable := region.addressable
        refine heapFree_past (heapAddressToBlock_null inv ?_) (by omega)
        unfold i32 peachosHeapBlockSize at *
        omega
    rw [unchanged] at run
    cases run
    rfl

end Pointers

/-- A pointer of the kernel heap. -/
theorem heapFree_safe_boot : FreeSafe bootKernel.heap peachosHeapAddress :=
  (heapFree_safe_iff (freshKernel_invariant kernelHeapRegion).heap).mpr
    ⟨by decide, fun null => absurd null (by decide)⟩

/-- Null lies 4096 blocks below the kernel heap. -/
theorem heapFree_null_boot : HeapInvariant kernelHeapRegion.toHeapRegion [] bootKernel.heap ∧
    (heapFree 0).run bootKernel.heap = .error (.tableIndex (-4096)) ∧
    ¬ FreeSafe bootKernel.heap 0 := by
  have inv := (freshKernel_invariant kernelHeapRegion).heap
  have bound := inv.total_lt
  have block : heapAddressToBlock bootKernel.heap 0 = -4096 := by decide
  have stopped : (heapFree 0).run bootKernel.heap = .error (.tableIndex (-4096)) := by
    have below := @heapFree_below bootKernel.heap 0 (by rw [block]; decide)
      (by
        change bootKernel.heap.table.total < 524288 at bound
        omega)
    rwa [block] at below
  refine ⟨inv, stopped, fun safe => ?_⟩
  obtain ⟨next, run⟩ := safe.inside
  rw [stopped] at run
  cases run

end Peachos
