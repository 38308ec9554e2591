import Peachos.Memory.HeapLive

/-! # Sizes and the blocks they are given

`heap_malloc` rounds its size up modulo `2 ^ 32`. A size of zero, and every size less than one
block below `2 ^ 32`, becomes a request for no blocks: the search then runs over the whole table
and answers with the free run at its end, of which nothing is marked.
-/

namespace Peachos

open CInt FirstFit

/-- The number of blocks that `heap_malloc` asks for. -/
def blocksAsked (size : Nat) : Nat := heapAlignValueToUpper size / peachosHeapBlockSize

/-- The sizes whose rounding is exact and not zero. -/
def ExactSize (size : Nat) : Prop := 1 ≤ size ∧ size ≤ 4294963200

instance (size : Nat) : Decidable (ExactSize size) := inferInstanceAs (Decidable (_ ∧ _))

/-- The other sizes ask for no blocks. -/
theorem blocksAsked_of_not_exact {size : Nat} (word : size < 4294967296)
    (inexact : ¬ ExactSize size) : blocksAsked size = 0 := by
  unfold ExactSize at inexact
  by_cases empty : size = 0
  · rw [empty]
    rfl
  · unfold blocksAsked heapAlignValueToUpper peachosHeapBlockSize
    rw [if_neg (by omega)]
    dsimp only
    unfold u32
    omega

/-- Without a count to reach, the search goes over the whole table. -/
theorem heapGetStartBlockLoop_zero (heap : Heap) (small : heap.table.total < 2147483648) :
    ∀ (remaining i : Nat) (bc bs : Int), i + remaining = heap.table.total →
      SearchAt heap i bc bs →
      (heapGetStartBlockLoop 0 remaining i bc bs).run heap =
        .ok ((if trailing heap.isFree heap.table.total = 0 then -1
          else (heap.table.total : Int) - trailing heap.isFree heap.table.total), heap) := by
  intro remaining
  induction remaining with
  | zero =>
      intro i bc bs reached held
      obtain rfl : i = heap.table.total := by omega
      rw [heapGetStartBlockLoop, Exec.run_pure, held.started]
  | succ remaining ih =>
      intro i bc bs reached held
      obtain ⟨nextCount, nextStart, next, run⟩ :=
        heapGetStartBlockLoop_step small (by omega) held 0 remaining
      rw [run, if_neg (by omega)]
      exact ih (i + 1) nextCount nextStart (by omega) next

/-- **A request for no blocks.** It is refused when the last entry of the table is taken; else
the answer is the first block of the free run at the end. -/
theorem heapMallocBlocks_zero {heap : Heap} (small : heap.table.total < 2147483648) :
    (heapMallocBlocks 0).run heap =
      .ok ((if heap.EndsTaken then 0 else heapBlockToAddress heap heap.trailingStart), heap) := by
  have search := heapGetStartBlockLoop_zero heap small heap.table.total 0 0 (-1) (Nat.zero_add _)
    (SearchAt.zero heap)
  have bound := trailing_le heap.isFree heap.table.total
  by_cases taken : heap.EndsTaken
  · have none : trailing heap.isFree heap.table.total = 0 := taken
    rw [if_pos none] at search
    have missing : (heapGetStartBlock 0).run heap = .ok (-enomem, heap) := by
      rw [heapGetStartBlock, Exec.bind_of_ok (Exec.run_read _ _), Exec.bind_of_ok search,
        if_pos rfl, Exec.run_pure]
    rw [heapMallocBlocks, Exec.bind_of_ok missing, if_pos (by decide), Exec.run_pure,
      if_pos taken]
  · have some : ¬ trailing heap.isFree heap.table.total = 0 := taken
    have start : (heap.table.total : Int) - trailing heap.isFree heap.table.total =
        heap.trailingStart := by
      unfold Heap.trailingStart
      omega
    rw [if_neg some, start] at search
    have found : (heapGetStartBlock 0).run heap = .ok ((heap.trailingStart : Int), heap) := by
      rw [heapGetStartBlock, Exec.bind_of_ok (Exec.run_read _ _), Exec.bind_of_ok search,
        if_neg (by omega), Exec.run_pure]
    have inside : heap.trailingStart < heap.table.total := by
      unfold Heap.trailingStart
      omega
    have stop : i32 (i32 ((heap.trailingStart : Int) + i32 (0 : Nat)) - 1) =
        (heap.trailingStart : Int) - 1 := by
      unfold i32
      omega
    rw [heapMallocBlocks, Exec.bind_of_ok found, if_neg (by omega),
      Exec.bind_of_ok (Exec.run_read _ _), heapMarkBlocksTaken, stop,
      show ((heap.trailingStart : Int) - 1 - heap.trailingStart + 1).toNat = 0 by omega,
      heapMarkBlocksTakenLoop, Exec.bind_of_ok (Exec.run_pure _ _), Exec.run_pure, if_neg taken]

/-- The free run at the end of a table that does not end in a taken entry has a free block. -/
theorem Heap.isFree_trailingStart {heap : Heap} (free : ¬ heap.EndsTaken) :
    heap.isFree heap.trailingStart = true := by
  have some : trailing heap.isFree heap.table.total ≠ 0 := free
  exact freeRun_trailing heap.isFree heap.table.total _ le_rfl
    (Nat.lt_add_of_pos_right (Nat.pos_of_ne_zero some))

section Requests

variable {region : HeapRegion} {live : List Allocation} {heap next : Heap} {size ptr : Nat}

/-- What a completed request did: nothing, or it marked a fitting run. -/
inductive Answered (region : HeapRegion) (live : List Allocation) (heap : Heap) (size : Nat)
    (ptr : Nat) (next : Heap) : Prop
  | refused (null : ptr = 0) (same : next = heap)
  | unmarked (inexact : ¬ ExactSize size) (free : ¬ heap.EndsTaken)
      (address : ptr = region.start + peachosHeapBlockSize * heap.trailingStart)
      (same : next = heap)
  | marked (exact : ExactSize size) (start : Nat)
      (address : ptr = region.start + peachosHeapBlockSize * start)
      (inside : start + blocksFor size ≤ heap.table.total)
      (free : FreeRun heap.isFree start (blocksFor size))
      (invariant : HeapInvariant region (⟨ptr, size⟩ :: live) next)

/-- A request for no blocks, under the invariant. -/
theorem heapMalloc_not_exact (inv : HeapInvariant region live heap) (word : size < 4294967296)
    (inexact : ¬ ExactSize size) : (heapMalloc size).run heap =
      .ok ((if heap.EndsTaken then 0
        else region.start + peachosHeapBlockSize * heap.trailingStart), heap) := by
  have bound := inv.total_lt
  have asked : heapMalloc size = heapMallocBlocks (blocksAsked size) := rfl
  rw [asked, blocksAsked_of_not_exact word inexact, heapMallocBlocks_zero (by omega)]
  by_cases taken : heap.EndsTaken
  · rw [if_pos taken, if_pos taken]
  · rw [if_neg taken, if_neg taken,
      inv.heapBlockToAddress_eq (Heap.isFree_lt (Heap.isFree_trailingStart taken))]

/-- A request that no run holds is marked past the end of a table that does not end in a taken
entry. -/
theorem heapMalloc_overrun (inv : HeapInvariant region live heap) (exact : ExactSize size)
    (full : ¬ HasFreeRun heap.isFree heap.table.total (blocksFor size))
    (free : ¬ heap.EndsTaken) :
    (heapMalloc size).run heap = .error (.tableIndex heap.table.total) := by
  have bound := inv.total_lt
  have positive := blocksFor_positive exact.1
  have start : heap.trailingStart ≤ heap.table.total := Nat.sub_le _ _
  have small : blocksFor size < 1048576 := by
    have limit := exact.2
    unfold blocksFor peachosHeapBlockSize
    omega
  rw [heapMalloc_eq_blocks exact.2]
  exact heapMallocBlocks_overrun (by omega) positive (by omega) full free (by unfold i32; omega)

/-- **One request of any size.** -/
theorem heapMalloc_answered (inv : HeapInvariant region live heap) (word : size < 4294967296)
    (run : (heapMalloc size).run heap = .ok (ptr, next)) :
    Answered region live heap size ptr next := by
  have bound := inv.total_lt
  by_cases exact : ExactSize size
  · by_cases fits : HasFreeRun heap.isFree heap.table.total (blocksFor size)
    · obtain ⟨start, last, done, least, inv'⟩ := heapMalloc_spec inv exact.1 exact.2 fits
      rw [run] at done
      cases done
      exact .marked exact start rfl least.1.1 least.1.2 inv'
    · by_cases taken : heap.EndsTaken
      · rw [heapMalloc_eq_blocks exact.2,
          heapMallocBlocks_refused (by omega) (blocksFor_positive exact.1) fits taken] at run
        cases run
        exact .refused rfl rfl
      · rw [heapMalloc_overrun inv exact fits taken] at run
        cases run
  · rw [heapMalloc_not_exact inv word exact] at run
    by_cases taken : heap.EndsTaken
    · rw [if_pos taken] at run
      cases run
      exact .refused rfl rfl
    · rw [if_neg taken] at run
      cases run
      exact .unmarked exact taken rfl rfl

/-- No request returns the pointer of a live allocation. -/
theorem heapMalloc_not_live (inv : HeapInvariant region live heap) (notNull : 0 < region.start)
    (word : size < 4294967296) (run : (heapMalloc size).run heap = .ok (ptr, next))
    {allocation : Allocation} (member : allocation ∈ live) : ptr ≠ allocation.ptr := by
  have placed := inv.placed allocation member
  have nonempty := inv.extent_nonempty member
  have taken : ∀ block, heap.isFree block = true → block ≠ (region.extent allocation).start := by
    rintro block free rfl
    exact (inv.isFree_iff (Heap.isFree_lt free)).mp free allocation member
      ⟨le_rfl, Nat.lt_add_of_pos_right nonempty⟩
  rw [placed]
  cases heapMalloc_answered inv word run with
  | refused null same =>
      rw [null]
      omega
  | unmarked inexact free address same =>
      have apart := taken _ (Heap.isFree_trailingStart free)
      rw [address]
      unfold peachosHeapBlockSize
      omega
  | marked exact start address inside free inv' =>
      have apart := taken start (free start le_rfl
        (Nat.lt_add_of_pos_right (blocksFor_positive exact.1)))
      rw [address]
      unfold peachosHeapBlockSize
      omega

end Requests

/-- The live allocations after a request of `size` that returned `ptr`. -/
def granted (live : List Allocation) (size ptr : Nat) : List Allocation :=
  if ptr = 0 ∨ ¬ ExactSize size then live else ⟨ptr, size⟩ :: live

/-- The heaps that any requests, and frees of live pointers other than `ptr`, lead to. -/
inductive HeapLater (region : HeapRegion) (ptr : Nat) (live : List Allocation) (heap : Heap) :
    List Allocation → Heap → Prop where
  | now : HeapLater region ptr live heap live heap
  | malloc {live' : List Allocation} {heap' next : Heap} {size found : Nat}
      (before : HeapLater region ptr live heap live' heap') (word : size < 4294967296)
      (run : (heapMalloc size).run heap' = .ok (found, next)) :
      HeapLater region ptr live heap (granted live' size found) next
  | free {live' : List Allocation} {heap' next : Heap} {allocation : Allocation}
      (before : HeapLater region ptr live heap live' heap') (member : allocation ∈ live')
      (other : allocation.ptr ≠ ptr)
      (run : (heapFree allocation.ptr).run heap' = .ok ((), next)) :
      HeapLater region ptr live heap (live'.filter fun other => other.ptr ≠ allocation.ptr) next

/-- What lives at the pointer stays, and so does the invariant. -/
theorem HeapLater.holds {region : HeapRegion} {live live' : List Allocation} {heap heap' : Heap}
    {ptr : Nat} (later : HeapLater region ptr live heap live' heap')
    (inv : HeapInvariant region live heap) (notNull : 0 < region.start)
    (held : ∃ allocation ∈ live, allocation.ptr = ptr) :
    HeapInvariant region live' heap' ∧ ∃ allocation ∈ live', allocation.ptr = ptr := by
  induction later with
  | now => exact ⟨inv, held⟩
  | malloc before word run ih =>
      obtain ⟨inv', held'⟩ := ih
      cases heapMalloc_answered inv' word run with
      | refused null same =>
          rw [granted, if_pos (.inl null), same]
          exact ⟨inv', held'⟩
      | unmarked inexact free address same =>
          rw [granted, if_pos (.inr inexact), same]
          exact ⟨inv', held'⟩
      | marked exact start address inside free inv'' =>
          rw [granted, if_neg (by rw [not_or, not_not]; exact ⟨by omega, exact⟩)]
          obtain ⟨allocation, member, same⟩ := held'
          exact ⟨inv'', allocation, List.mem_cons_of_mem _ member, same⟩
  | free before member other run ih =>
      obtain ⟨inv', allocation, member', same⟩ := ih
      obtain ⟨next, done, _, inv''⟩ := heapFree_spec inv' member
      rw [run] at done
      cases done
      exact ⟨inv'', allocation,
        List.mem_filter.mpr ⟨member', decide_eq_true (same ▸ other.symm)⟩, same⟩

/-- The call of `heap_malloc` completes, and a pointer it returns is that of as many blocks as
hold the size, at least one: they were free and are taken, and no later call returns the pointer
before it is freed. -/
def MallocSound (region : HeapRegion) (live : List Allocation) (heap : Heap) (size : Nat) :
    Prop :=
  ∃ ptr next, (heapMalloc size).run heap = .ok (ptr, next) ∧ (ptr ≠ 0 →
    (∃ start, ptr = region.start + peachosHeapBlockSize * start ∧
      ∀ block, start ≤ block → block < start + max 1 (blocksFor size) →
        heap.isFree block = true ∧ block < next.table.total ∧ next.isFree block = false) ∧
    ∀ live' heap', HeapLater region ptr (granted live size ptr) next live' heap' →
      ∀ size' last, size' < 4294967296 → (heapMalloc size').run heap' ≠ .ok (ptr, last))

/-- **Every size.** `heap_malloc` gives a size its blocks exactly when the size is from 1 to
`2 ^ 32 - 4096` and a free run holds it, or the table ends in a taken entry. -/
theorem mallocSound_iff {region : HeapRegion} {live : List Allocation} {heap : Heap}
    (inv : HeapInvariant region live heap) (notNull : 0 < region.start) {size : Nat}
    (word : size < 4294967296) :
    MallocSound region live heap size ↔
      ExactSize size ∧ HasFreeRun heap.isFree heap.table.total (blocksFor size) ∨
        heap.EndsTaken := by
  have bound := inv.total_lt
  have marked : ExactSize size → HasFreeRun heap.isFree heap.table.total (blocksFor size) →
      MallocSound region live heap size := by
    intro exact fits
    obtain ⟨start, next, run, least, inv'⟩ := heapMalloc_spec inv exact.1 exact.2 fits
    have most : max 1 (blocksFor size) = blocksFor size :=
      max_eq_right (blocksFor_positive exact.1)
    have extent : region.extent ⟨region.start + peachosHeapBlockSize * start, size⟩ =
        ⟨start, blocksFor size⟩ := by
      unfold HeapRegion.extent peachosHeapBlockSize
      congr 1
      dsimp only
      omega
    refine ⟨_, next, run, fun some => ⟨⟨start, rfl, fun block after before => ?_⟩, ?_⟩⟩
    · rw [most] at before
      have free := least.1.2 block after before
      have total : next.table.total = heap.table.total := by
        have before := inv.total
        have after := inv'.total
        unfold peachosHeapBlockSize at before after
        omega
      have inside : block < next.table.total := by
        rw [total]
        exact Heap.isFree_lt free
      refine ⟨free, inside, Bool.not_eq_true _ ▸ fun still => ?_⟩
      refine (inv'.isFree_iff inside).mp still _ List.mem_cons_self ?_
      rw [extent]
      exact ⟨after, before⟩
    · intro live' heap' later size' last word' run'
      rw [granted, if_neg (by rw [not_or, not_not]; exact ⟨some, exact⟩)] at later
      obtain ⟨inv'', allocation, member, same⟩ :=
        later.holds inv' notNull ⟨_, List.mem_cons_self, rfl⟩
      exact heapMalloc_not_live inv'' notNull word' run' member same.symm
  constructor
  · rintro ⟨ptr, next, run, sound⟩
    by_contra neither
    rw [not_or] at neither
    cases heapMalloc_answered inv word run with
    | refused null same =>
        by_cases exact : ExactSize size
        · rw [heapMalloc_overrun inv exact (fun fits => neither.1 ⟨exact, fits⟩) neither.2] at run
          cases run
        · rw [heapMalloc_not_exact inv word exact, if_neg neither.2] at run
          cases run
          omega
    | unmarked inexact free address same =>
        obtain ⟨⟨start, address', blocks⟩, _⟩ := sound (by omega)
        obtain ⟨here, _, taken⟩ := blocks start le_rfl
          (Nat.lt_add_of_pos_right (Nat.le_max_left _ _))
        rw [same, here] at taken
        cases taken
    | marked exact start address inside free inv' =>
        exact neither.1 ⟨exact, start, inside, free⟩
  · rintro (⟨exact, fits⟩ | taken)
    · exact marked exact fits
    · by_cases exact : ExactSize size
      · by_cases fits : HasFreeRun heap.isFree heap.table.total (blocksFor size)
        · exact marked exact fits
        · refine ⟨0, heap, ?_, fun some => absurd rfl some⟩
          rw [heapMalloc_eq_blocks exact.2]
          exact heapMallocBlocks_refused (by omega) (blocksFor_positive exact.1) fits taken
      · refine ⟨0, heap, ?_, fun some => absurd rfl some⟩
        rw [heapMalloc_not_exact inv word exact, if_pos taken]

/-- The three blocks after `heap_create`. -/
theorem threeBlocks_created :
    HeapInvariant threeBlocks [] ⟨⟨[0x00, 0x00, 0x00]⟩, 0x01000000⟩ :=
  @heapCreate_invariant threeBlocks ⟨⟨[]⟩, 0⟩ _ ⟨[0xFF, 0x41, 0x07]⟩ rfl

/-- Two blocks for 5000 bytes. -/
theorem mallocSound_threeBlocks :
    MallocSound threeBlocks [] ⟨⟨[0x00, 0x00, 0x00]⟩, 0x01000000⟩ 5000 :=
  (mallocSound_iff threeBlocks_created (by decide) (by decide)).mpr (.inl (by decide))

/-- A request for `2 ^ 32 - 1` bytes of a heap of three blocks returns its first block, and
marks nothing. -/
theorem mallocSound_wrapped :
    (heapMalloc 0xFFFFFFFF).run ⟨⟨[0x00, 0x00, 0x00]⟩, 0x01000000⟩ =
        .ok (0x01000000, ⟨⟨[0x00, 0x00, 0x00]⟩, 0x01000000⟩) ∧
      ¬ MallocSound threeBlocks [] ⟨⟨[0x00, 0x00, 0x00]⟩, 0x01000000⟩ 0xFFFFFFFF := by
  have run : (heapMalloc 0xFFFFFFFF).run ⟨⟨[0x00, 0x00, 0x00]⟩, 0x01000000⟩ =
      .ok (0x01000000, ⟨⟨[0x00, 0x00, 0x00]⟩, 0x01000000⟩) := by
    rw [heapMalloc_not_exact threeBlocks_created (by decide) (by decide), if_neg (by decide)]
    rfl
  refine ⟨run, ?_⟩
  rintro ⟨ptr, next, run', sound⟩
  rw [run] at run'
  cases run'
  obtain ⟨⟨start, address, blocks⟩, _⟩ := sound (by decide)
  obtain ⟨here, _, taken⟩ := blocks start le_rfl (Nat.lt_add_of_pos_right (Nat.le_max_left _ _))
  rw [here] at taken
  cases taken

end Peachos
