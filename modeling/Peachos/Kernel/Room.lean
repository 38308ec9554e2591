import Peachos.Kernel.Boot

/-! # Room in the heap

A run of free blocks stays one, less as many blocks from its start as are allocated: the first
fit lies before it or takes them from there. Freeing other blocks does not shorten it.

A request for one block takes the lowest free one. What is left for a larger request after a few of
them is a matter of the blocks that are free at the start (`kmalloc_lowest`).
-/

namespace Peachos

open FirstFit

/-- The blocks from `lower` to `upper` are free. -/
structure Heap.Room (heap : Heap) (lower upper : Nat) : Prop where
  inside : upper ≤ heap.table.total
  free : ∀ block, lower ≤ block → block < upper → heap.isFree block = true

section Room

variable {live live' : List Allocation} {lower upper : Nat}

theorem Heap.Room.fits {heap : Heap} (room : heap.Room lower upper) {count : Nat}
    (enough : lower + count ≤ upper) : HasFreeRun heap.isFree heap.table.total count :=
  ⟨lower, enough.trans room.inside, fun block after before => room.free block after (by omega)⟩

/-- A request in the room. -/
theorem heapMalloc_room {region : HeapRegion} {heap : Heap}
    (inv : HeapInvariant region live heap) (room : heap.Room lower upper) {size : Nat}
    (positive : 1 ≤ size) (small : size ≤ 4294963200) (enough : lower + blocksFor size ≤ upper) :
    ∃ ptr next, (heapMalloc size).run heap = .ok (ptr, next) ∧
      HeapInvariant region (⟨ptr, size⟩ :: live) next ∧
      next.Room (lower + blocksFor size) upper := by
  obtain ⟨start, next, run, least, inv'⟩ :=
    heapMalloc_spec inv positive small (room.fits enough)
  have first : start ≤ lower := least.2 ⟨enough.trans room.inside,
    fun block after before => room.free block after (by omega)⟩
  refine ⟨_, next, run, inv', ⟨?_, fun block after before => ?_⟩⟩
  · rw [inv.sameTotal inv']
    exact room.inside
  · apply inv.isFree_of_cons inv' (room.free block (by omega) before)
    unfold Extent.Covers HeapRegion.extent peachosHeapBlockSize
    dsimp only
    omega

/-- The room remains while no block is taken. -/
theorem Heap.Room.of_fewer {region : HeapRegion} {heap next : Heap}
    (room : heap.Room lower upper) (inv : HeapInvariant region live heap)
    (inv' : HeapInvariant region live' next) (fewer : live' ⊆ live) : next.Room lower upper := by
  have total := inv.sameTotal inv'
  refine ⟨by rw [total]; exact room.inside, fun block after before => ?_⟩
  have inside := room.inside
  apply (inv'.isFree_iff (by omega)).mpr
  exact fun allocation member =>
    (inv.isFree_iff (by omega)).mp (room.free block after before) allocation (fewer member)

/-- A request of the kernel in the room. -/
theorem kmalloc_room {region : KernelRegion} {kernel : Kernel}
    (inv : KernelInvariant region live kernel) (room : kernel.heap.Room lower upper) {size : Nat}
    (positive : 1 ≤ size) (small : size ≤ 4294963200) (enough : lower + blocksFor size ≤ upper)
    (contents : Obj) :
    ∃ ptr next, (kmalloc size contents).run kernel = .ok (ptr, next) ∧
      Placed region live (⟨ptr, size⟩ :: live) kernel contents ptr next ∧
      next.heap.Room (lower + blocksFor size) upper := by
  obtain ⟨found, heap, done, _, after⟩ := heapMalloc_room inv.heap room positive small enough
  obtain ⟨ptr, next, run, placed⟩ :=
    kmalloc_fits inv positive small (room.fits enough) contents
  refine ⟨ptr, next, run, placed, ?_⟩
  obtain ⟨found', middle, started, rest⟩ := Exec.bind_eq_ok.mp run
  obtain ⟨heap', done', rfl⟩ := Exec.zoom_eq_ok.mp started
  rw [done] at done'
  cases done'
  by_cases null : found = 0
  · rw [if_pos null] at rest
    cases rest
    exact absurd rfl placed.notNull
  · rw [if_neg null] at rest
    cases rest
    exact after

end Room

/-- The number of free blocks before a block. -/
def Heap.freeBefore (heap : Heap) (block : Nat) : Nat :=
  ((Finset.range block).filter fun other => heap.isFree other = true).card

/-- The block is free once the `taken` lowest free blocks are taken. -/
def Heap.freeAfter (heap : Heap) (taken block : Nat) : Bool :=
  heap.isFree block && decide (taken ≤ heap.freeBefore block)

/-- There is a run of `count` free blocks once the `taken` lowest free blocks are taken. -/
def Heap.RoomAfter (heap : Heap) (taken count : Nat) : Prop :=
  HasFreeRun (heap.freeAfter taken) heap.table.total count

/-- A request of `size` is granted once the `taken` lowest free blocks are taken. -/
def Heap.GrantsAfter (heap : Heap) (taken size : Nat) : Prop :=
  1 ≤ size ∧ heap.RoomAfter taken (blocksFor size) ∨
    size = 0 ∧ ∃ last, heap.table.total = last + 1 ∧ heap.freeAfter taken last = true

theorem Heap.GrantsAfter.room {heap : Heap} {taken size : Nat}
    (granted : heap.GrantsAfter taken size) (some : 1 ≤ size) :
    heap.RoomAfter taken (blocksFor size) := by
  rcases granted with ⟨_, room⟩ | ⟨empty, _⟩
  · exact room
  · omega

/-- The lowest free block of a heap is taken, and no other one. -/
structure Heap.LowestTaken (heap next : Heap) : Prop where
  total : next.table.total = heap.table.total
  free : ∀ taken, next.freeAfter taken = heap.freeAfter (taken + 1)

theorem Heap.LowestTaken.roomAfter {heap next : Heap} (lowest : heap.LowestTaken next)
    (taken count : Nat) : next.RoomAfter taken count ↔ heap.RoomAfter (taken + 1) count := by
  unfold RoomAfter
  rw [lowest.total, lowest.free]

theorem Heap.LowestTaken.grantsAfter {heap next : Heap} (lowest : heap.LowestTaken next)
    (taken size : Nat) : next.GrantsAfter taken size ↔ heap.GrantsAfter (taken + 1) size := by
  unfold GrantsAfter
  rw [lowest.roomAfter, lowest.total, lowest.free]

section Lowest

variable {region : KernelRegion} {live : List Allocation} {kernel : Kernel}

theorem Heap.roomAfter_zero (heap : Heap) (count : Nat) :
    heap.RoomAfter 0 count ↔ HasFreeRun heap.isFree heap.table.total count := by
  unfold RoomAfter freeAfter
  simp only [Nat.zero_le, decide_true, Bool.and_true]

theorem Heap.grantsAfter_zero (heap : Heap) (size : Nat) :
    heap.GrantsAfter 0 size ↔ heap.Grants size := by
  unfold GrantsAfter Grants
  rw [heap.roomAfter_zero, heap.endsTaken_iff]
  refine or_congr_right (and_congr_right fun _ => ?_)
  simp only [freeAfter, Nat.zero_le, decide_true, Bool.and_true]
  cases heap.table.total with
  | zero => simp
  | succ last => simp

theorem Heap.RoomAfter.fewer {heap : Heap} {taken fewer count : Nat}
    (room : heap.RoomAfter taken count) (less : fewer ≤ taken) : heap.RoomAfter fewer count := by
  obtain ⟨start, inside, free⟩ := room
  refine ⟨start, inside, fun block after before => ?_⟩
  obtain ⟨here, behind⟩ := Bool.and_eq_true_iff.mp (free block after before)
  exact Bool.and_eq_true_iff.mpr ⟨here, decide_eq_true (less.trans (of_decide_eq_true behind))⟩

/-- Room after the lowest block is room for that block. -/
theorem Heap.RoomAfter.positive {heap : Heap} {taken count : Nat}
    (room : heap.RoomAfter taken count) (some : 1 ≤ count) : 1 ≤ heap.freeBlocks := by
  obtain ⟨start, inside, free⟩ := room
  have here := (Bool.and_eq_true_iff.mp (free start le_rfl (by omega))).1
  exact Finset.card_pos.mpr
    ⟨start, Finset.mem_filter.mpr ⟨Finset.mem_range.mpr (Heap.isFree_lt here), here⟩⟩

theorem Heap.GrantsAfter.positive {heap : Heap} {taken size : Nat}
    (granted : heap.GrantsAfter taken size) : 1 ≤ heap.freeBlocks := by
  rcases granted with ⟨some, room⟩ | ⟨_, last, total, free⟩
  · exact room.positive (blocksFor_positive some)
  · have here := (Bool.and_eq_true_iff.mp free).1
    exact Finset.card_pos.mpr
      ⟨last, Finset.mem_filter.mpr ⟨Finset.mem_range.mpr (by omega), here⟩⟩

/-- Room in the heap is room after the lowest blocks. -/
theorem Heap.Room.after {heap : Heap} {lower upper taken count : Nat}
    (room : heap.Room lower upper) (enough : lower + taken + count ≤ upper) :
    heap.RoomAfter taken count := by
  refine ⟨lower + taken, enough.trans room.inside, fun block after before => ?_⟩
  refine Bool.and_eq_true_iff.mpr ⟨room.free block (by omega) (by omega), decide_eq_true ?_⟩
  have lowest : Finset.Ico lower (lower + taken) ⊆
      (Finset.range block).filter fun other => heap.isFree other = true := by
    intro other member
    obtain ⟨above, below⟩ := Finset.mem_Ico.mp member
    exact Finset.mem_filter.mpr
      ⟨Finset.mem_range.mpr (by omega), room.free other above (by omega)⟩
  have counted := Finset.card_le_card lowest
  rwa [Nat.card_Ico, Nat.add_sub_cancel_left] at counted

/-- **The lowest block.** A request for one block takes it. -/
theorem kmalloc_lowest (inv : KernelInvariant region live kernel) {size : Nat}
    (oneBlock : blocksFor size = 1) (some : 1 ≤ kernel.heap.freeBlocks) (contents : Obj) :
    ∃ ptr next, (kmalloc size contents).run kernel = .ok (ptr, next) ∧
      Placed region live (⟨ptr, size⟩ :: live) kernel contents ptr next ∧
      kernel.heap.LowestTaken next.heap := by
  obtain ⟨first, member⟩ := Finset.card_pos.mp some
  obtain ⟨inside, free⟩ := Finset.mem_filter.mp member
  have bounds : 1 ≤ size ∧ size ≤ 4096 := by
    unfold blocksFor peachosHeapBlockSize at oneBlock
    omega
  have fits : HasFreeRun kernel.heap.isFree kernel.heap.table.total (blocksFor size) := by
    rw [oneBlock]
    refine ⟨first, Finset.mem_range.mp inside, fun other after before => ?_⟩
    rwa [show other = first by omega]
  obtain ⟨start, next, least, run, placed⟩ := kmalloc_least inv bounds.1 (by omega) fits contents
  refine ⟨_, next, run, placed, inv.heap.sameTotal placed.invariant.heap,
    fun taken => funext fun block => ?_⟩
  rw [oneBlock] at least
  have startFree := least.1.2 start le_rfl (Nat.lt_succ_self _)
  have lowest : ∀ block, kernel.heap.isFree block = true → start ≤ block := by
    intro block here
    refine least.2 ⟨Heap.isFree_lt here, fun other after before => ?_⟩
    rwa [show other = block by omega]
  have left : ∀ block, next.heap.isFree block = true ↔
      kernel.heap.isFree block = true ∧ block ≠ start := by
    intro block
    rw [placed.isFree_iff inv]
    refine and_congr_right fun _ => not_congr ?_
    unfold Extent.Covers HeapRegion.extent
    dsimp only
    rw [oneBlock, Nat.add_sub_cancel_left, Nat.mul_div_cancel_left _ (by decide)]
    omega
  have before : ∀ block, start < block →
      next.heap.freeBefore block + 1 = kernel.heap.freeBefore block := by
    intro block after
    have same : (Finset.range block).filter (fun other => next.heap.isFree other = true) =
        ((Finset.range block).filter fun other => kernel.heap.isFree other = true).erase start := by
      ext other
      rw [Finset.mem_erase, Finset.mem_filter, Finset.mem_filter, left]
      tauto
    have there : start ∈ (Finset.range block).filter fun other =>
        kernel.heap.isFree other = true :=
      Finset.mem_filter.mpr ⟨Finset.mem_range.mpr after, startFree⟩
    rw [Heap.freeBefore, same, Finset.card_erase_add_one there, Heap.freeBefore]
  have none : kernel.heap.freeBefore start = 0 := by
    refine Finset.card_eq_zero.mpr (Finset.filter_eq_empty_iff.mpr fun other below here => ?_)
    have above := lowest other here
    rw [Finset.mem_range] at below
    omega
  unfold Heap.freeAfter
  rw [Bool.eq_iff_iff, Bool.and_eq_true, Bool.and_eq_true, left, decide_eq_true_iff,
    decide_eq_true_iff]
  by_cases here : kernel.heap.isFree block = true
  · by_cases first : block = start
    · rw [first, none]
      omega
    · have counted := before block (Nat.lt_of_le_of_ne (lowest block here) (Ne.symm first))
      simp only [here, first, not_false_eq_true, true_and, ne_eq]
      omega
  · exact iff_of_false (fun free => here free.1.1) fun free => here free.1

/-- A request for one block that was granted took it. -/
theorem Placed.lowest {size ptr : Nat} {contents : Obj} {next : Kernel}
    (placed : Placed region live (⟨ptr, size⟩ :: live) kernel contents ptr next)
    (inv : KernelInvariant region live kernel) (oneBlock : blocksFor size = 1)
    (requested : (kmalloc size contents).run kernel = .ok (ptr, next)) :
    kernel.heap.LowestTaken next.heap := by
  have counted := placed.freeBlocks inv
  obtain ⟨_, _, requested', _, lowest⟩ :=
    kmalloc_lowest inv oneBlock (by omega) contents
  rw [requested] at requested'
  obtain ⟨rfl, rfl⟩ := Prod.mk.inj (Except.ok.inj requested')
  exact lowest

end Lowest

end Peachos
