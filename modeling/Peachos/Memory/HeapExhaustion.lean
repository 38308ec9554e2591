import Peachos.Memory.HeapSpec

/-! # Block requests that no free run can satisfy

`heap_get_start_block` keeps the start of the current free run in `bs` and reports
failure only when the table does not end in a free run. A request for which every
run is too short is therefore answered with the trailing run, and marking it writes
past the table. `mallocBlocksSafe_iff` says exactly which requests are safe.
-/

namespace Peachos

open CInt FirstFit

/-- A call of `heap_malloc_blocks` that refuses a request without a run and stays inside
the table. -/
structure MallocBlocksSafe (heap : Heap) (totalBlocks : Nat) : Prop where
  refuses : ¬ HasFreeRun heap.isFree heap.table.total totalBlocks →
    (heapMallocBlocks totalBlocks).run heap = .ok (0, heap)
  inside : ∀ index, (heapMallocBlocks totalBlocks).run heap ≠ .error (.tableIndex index)

namespace Heap

/-- The first block of the free run at the end of the table. -/
def trailingStart (heap : Heap) : Nat :=
  heap.table.total - trailing heap.isFree heap.table.total

/-- The table does not end in a free entry. -/
def EndsTaken (heap : Heap) : Prop := trailing heap.isFree heap.table.total = 0

instance (heap : Heap) : Decidable heap.EndsTaken := inferInstanceAs (Decidable (_ = _))

/-- The end of the request overflows `int` to a block before its start, so that nothing is
marked, and the address of the start wraps around to null. -/
def WrapsToNull (heap : Heap) (totalBlocks : Nat) : Prop :=
  i32 (i32 (heap.trailingStart + i32 totalBlocks) - 1) < heap.trailingStart ∧
    heapBlockToAddress heap heap.trailingStart = 0

/-- A table that ends in a free entry has a trailing run of at least that entry. -/
theorem endsTaken_iff (heap : Heap) :
    heap.EndsTaken ↔ heap.table.total = 0 ∨ heap.isFree (heap.table.total - 1) = false := by
  unfold EndsTaken
  cases size : heap.table.total with
  | zero => simp only [trailing_zero, true_or]
  | succ last =>
      cases here : heap.isFree last with
      | false => simp [trailing_succ_of_taken here, here]
      | true => simp [trailing_succ_of_free here, here]

end Heap

/-- A request with a fitting run gets the lowest one, marked as one allocation. -/
theorem heapMallocBlocks_fits {heap : Heap} (small : heap.table.total < 2147483648)
    {totalBlocks : Nat} (positive : 1 ≤ totalBlocks)
    (fits : HasFreeRun heap.isFree heap.table.total totalBlocks) :
    ∃ (start : Nat) (next : Heap), (heapMallocBlocks totalBlocks).run heap =
        .ok (heapBlockToAddress heap start, next) ∧
      start + totalBlocks ≤ heap.table.total ∧ FreeRun heap.isFree start totalBlocks ∧
      (∀ other, other + totalBlocks ≤ heap.table.total →
        FreeRun heap.isFree other totalBlocks → start ≤ other) ∧
      heap.SameFrame next ∧ ∀ position, next.table.entries[position]? =
        if (Extent.mk start totalBlocks).Covers position
        then some (blockEntry ⟨start, totalBlocks⟩ position)
        else heap.table.entries[position]? := by
  obtain ⟨start, found, inside, free, lowest⟩ := heapGetStartBlock_found small positive fits
  obtain ⟨next, marked, frame, entries⟩ :=
    heapMarkBlocksTaken_inside ⟨start, totalBlocks⟩ small positive inside
  refine ⟨start, next, ?_, inside, free, lowest, frame, entries⟩
  rw [heapMallocBlocks, Exec.bind_of_ok found, if_neg (by omega),
    Exec.bind_of_ok (Exec.run_read _ _), i32_natCast (by omega), Exec.bind_of_ok marked,
    Exec.run_pure]

/-- Without a fitting run and without a trailing run the request is refused. -/
theorem heapMallocBlocks_refused {heap : Heap} (small : heap.table.total < 2147483648)
    {totalBlocks : Nat} (positive : 1 ≤ totalBlocks)
    (full : ¬ HasFreeRun heap.isFree heap.table.total totalBlocks) (taken : heap.EndsTaken) :
    (heapMallocBlocks totalBlocks).run heap = .ok (0, heap) := by
  have missing := heapGetStartBlock_missing small positive full
  rw [if_pos (show trailing heap.isFree heap.table.total = 0 from taken)] at missing
  rw [heapMallocBlocks, Exec.bind_of_ok missing, if_pos (by decide), Exec.run_pure]

/-- Without a fitting run the trailing run is marked, whatever its length. -/
theorem heapMallocBlocks_trailing {heap : Heap} (small : heap.table.total < 2147483648)
    {totalBlocks : Nat} (positive : 1 ≤ totalBlocks)
    (full : ¬ HasFreeRun heap.isFree heap.table.total totalBlocks) (free : ¬ heap.EndsTaken) :
    (heapMallocBlocks totalBlocks).run heap =
      (heapMarkBlocksTaken heap.trailingStart (i32 totalBlocks) >>= fun _ =>
        pure (heapBlockToAddress heap heap.trailingStart)).run heap := by
  have bound := trailing_le heap.isFree heap.table.total
  have start : (heap.table.total : Int) - trailing heap.isFree heap.table.total =
      heap.trailingStart := by
    unfold Heap.trailingStart
    omega
  have missing := heapGetStartBlock_missing small positive full
  rw [if_neg (show ¬ trailing heap.isFree heap.table.total = 0 from free), start] at missing
  rw [heapMallocBlocks, Exec.bind_of_ok missing, if_neg (by omega),
    Exec.bind_of_ok (Exec.run_read _ _)]

/-- Unless the end of the request overflows, marking a trailing run that is too short
writes the entry after the table. -/
theorem heapMallocBlocks_overrun {heap : Heap} (small : heap.table.total < 2147483648)
    {totalBlocks : Nat} (positive : 1 ≤ totalBlocks) (word : totalBlocks < 4294967296)
    (full : ¬ HasFreeRun heap.isFree heap.table.total totalBlocks) (free : ¬ heap.EndsTaken)
    (marked : ¬ i32 (i32 (heap.trailingStart + i32 totalBlocks) - 1) < heap.trailingStart) :
    (heapMallocBlocks totalBlocks).run heap = .error (.tableIndex heap.table.total) := by
  have bound := trailing_le heap.isFree heap.table.total
  have short : trailing heap.isFree heap.table.total < totalBlocks := by
    by_contra enough
    exact full (hasFreeRun_iff.mpr ⟨_, le_rfl, not_lt.mp enough⟩)
  have start : heap.trailingStart =
      heap.table.total - trailing heap.isFree heap.table.total := rfl
  have beyond : heap.table.total < heap.trailingStart +
      (i32 (i32 (heap.trailingStart + i32 totalBlocks) - 1) -
        heap.trailingStart + 1).toNat := by
    unfold i32 at marked ⊢
    omega
  rw [heapMallocBlocks_trailing small positive full free, heapMarkBlocksTaken]
  exact Exec.bind_of_error
    (heapMarkBlocksTakenLoop_overrun _ _ _ _ heap (by omega) beyond)

/-- **When a request for blocks is safe.** `heap_malloc_blocks` refuses what it cannot
satisfy and stays inside the table exactly when a fitting run exists, or the table does
not end in a free entry, or the request wraps around to the null address. -/
theorem mallocBlocksSafe_iff (heap : Heap) (totalBlocks : Nat)
    (small : heap.table.total < 2147483648) (positive : 1 ≤ totalBlocks)
    (word : totalBlocks < 4294967296) :
    MallocBlocksSafe heap totalBlocks ↔
      HasFreeRun heap.isFree heap.table.total totalBlocks ∨ heap.EndsTaken ∨
        heap.WrapsToNull totalBlocks := by
  by_cases fits : HasFreeRun heap.isFree heap.table.total totalBlocks
  · refine iff_of_true ⟨fun full => absurd fits full, ?_⟩ (Or.inl fits)
    obtain ⟨start, next, run, _⟩ := heapMallocBlocks_fits small positive fits
    intro index stopped
    rw [run] at stopped
    cases stopped
  · by_cases taken : heap.EndsTaken
    · have run := heapMallocBlocks_refused small positive fits taken
      refine iff_of_true ⟨fun _ => run, ?_⟩ (Or.inr (Or.inl taken))
      intro index stopped
      rw [run] at stopped
      cases stopped
    · have run := heapMallocBlocks_trailing small positive fits taken
      have safeIff : MallocBlocksSafe heap totalBlocks ↔ heap.WrapsToNull totalBlocks := by
        unfold Heap.WrapsToNull
        by_cases skipped :
            i32 (i32 (heap.trailingStart + i32 totalBlocks) - 1) < heap.trailingStart
        · -- The marking loop does not run, so the answer is the address alone.
          have none : (i32 (i32 (heap.trailingStart + i32 totalBlocks) - 1) -
              heap.trailingStart + 1).toNat = 0 := by omega
          have done : (heapMallocBlocks totalBlocks).run heap =
              .ok (heapBlockToAddress heap heap.trailingStart, heap) := by
            rw [run, heapMarkBlocksTaken, none, heapMarkBlocksTakenLoop,
              Exec.bind_of_ok (Exec.run_pure _ _), Exec.run_pure]
          constructor
          · intro safe
            have refused := safe.refuses fits
            rw [done] at refused
            injection refused with pair
            injection pair with address
            exact ⟨skipped, address⟩
          · rintro ⟨_, null⟩
            refine ⟨fun _ => by rw [done, null], fun index stopped => ?_⟩
            rw [done] at stopped
            cases stopped
        · have stopped := heapMallocBlocks_overrun small positive word fits taken skipped
          refine iff_of_false (fun safe => safe.inside _ stopped) (fun wraps => skipped wraps.1)
      rw [safeIff]
      simp only [fits, taken, false_or]

/-- One free block at the end of the region and a request for two. -/
def oneFreeBlock : Heap := { table := ⟨[0x41, 0x00]⟩, saddr := 0x01000000 }

/-- The request for two blocks of a table whose only free entry is the last one is not
refused: marking it writes the entry after the table. -/
theorem oneFreeBlock_overrun :
    ¬ HasFreeRun oneFreeBlock.isFree oneFreeBlock.table.total 2 ∧
      (heapMallocBlocks 2).run oneFreeBlock = .error (.tableIndex 2) ∧
      ¬ MallocBlocksSafe oneFreeBlock 2 := by
  have stopped : (heapMallocBlocks 2).run oneFreeBlock = .error (.tableIndex 2) := by rfl
  exact ⟨by decide, stopped, fun safe => safe.inside 2 stopped⟩

/-- The same table refuses the request once its last entry is taken. -/
theorem oneFreeBlock_filled_safe :
    MallocBlocksSafe { oneFreeBlock with table := ⟨[0x41, 0x41]⟩ } 2 :=
  (mallocBlocksSafe_iff { oneFreeBlock with table := ⟨[0x41, 0x41]⟩ } 2 (by decide) (by decide)
    (by decide)).mpr (Or.inr (Or.inl (by decide)))

end Peachos
