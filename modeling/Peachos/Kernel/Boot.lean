import Peachos.Kernel.Frame

/-! # A kernel with all memory free

`bootKernel` is the state after `kheap_init`. While nothing is freed its taken blocks lie
together at the start of the heap, so the address of each allocation is known
(`kmalloc_packed`).
-/

namespace Peachos

open CInt FirstFit

/-- The kernel with the region free and no object in it. -/
def freshKernel (region : KernelRegion) : Kernel where
  heap := {
    saddr := region.start
    table := ⟨List.replicate (region.bytes / peachosHeapBlockSize) heapBlockTableEntryFree⟩ }

/-- The kernel after `kheap_init`. -/
def bootKernel : Kernel := freshKernel kernelHeapRegion

/-- The first `used` blocks of the heap are taken, the others are free. -/
structure Packed (region : KernelRegion) (live : List Allocation) (kernel : Kernel) (used : Nat) :
    Prop where
  invariant : KernelInvariant region live kernel
  free : ∀ block < kernel.heap.table.total, kernel.heap.isFree block = true ↔ used ≤ block

theorem freshKernel_total (region : KernelRegion) :
    (freshKernel region).heap.table.total = region.bytes / peachosHeapBlockSize :=
  List.length_replicate ..

theorem freshKernel_invariant (region : KernelRegion) :
    KernelInvariant region [] (freshKernel region) := by
  refine ⟨⟨rfl, ?_, nofun, nofun, .empty _, nofun, ?_⟩, nofun, nofun⟩
  · have aligned := region.bytesAligned
    rw [freshKernel_total]
    unfold peachosHeapBlockSize at *
    omega
  · intro block inside _
    rw [freshKernel_total] at inside
    exact (List.getElem?_replicate ..).trans (if_pos inside)

theorem freshKernel_packed (region : KernelRegion) : Packed region [] (freshKernel region) 0 := by
  refine ⟨freshKernel_invariant region, fun block inside => ?_⟩
  rw [(freshKernel_invariant region).heap.isFree_iff inside]
  exact ⟨fun _ => Nat.zero_le _, fun _ => nofun⟩

section Allocate

variable {region : KernelRegion} {live : List Allocation} {kernel : Kernel} {used : Nat}

/-- The number of blocks is that of the region. -/
theorem Packed.total (packed : Packed region live kernel used) :
    kernel.heap.table.total * peachosHeapBlockSize = region.bytes :=
  packed.invariant.heap.total

/-- Writing objects keeps the blocks as they are. -/
theorem Packed.of_writes (packed : Packed region live kernel used) {next : Kernel}
    {owned : Nat → Prop} (only : WritesOnly owned kernel next) : Packed region live next used := by
  refine ⟨only.invariant packed.invariant, ?_⟩
  rw [only.heap]
  exact packed.free

/-- So does a change of the global variables. -/
theorem Packed.of_same (packed : Packed region live kernel used) {next : Kernel}
    (heap : next.heap = kernel.heap) (objs : next.objs = kernel.objs) :
    Packed region live next used := by
  refine ⟨packed.invariant.of_same heap objs, ?_⟩
  rw [heap]
  exact packed.free

/-- A block is free after an allocation if it was and the allocation does not cover it. -/
theorem Placed.isFree_iff {size ptr : Nat} {contents : Obj} {next : Kernel}
    (placed : Placed region live (⟨ptr, size⟩ :: live) kernel contents ptr next)
    (inv : KernelInvariant region live kernel) (block : Nat) :
    next.heap.isFree block = true ↔
      kernel.heap.isFree block = true ∧ ¬ (region.extent ⟨ptr, size⟩).Covers block := by
  have sameSize := inv.heap.sameTotal placed.invariant.heap
  by_cases inside : block < kernel.heap.table.total
  · rw [inv.heap.isFree_iff inside, placed.invariant.heap.isFree_iff (sameSize ▸ inside),
      List.forall_mem_cons, and_comm]
  · refine iff_of_false (fun free => ?_) fun ⟨free, _⟩ => inside (Heap.isFree_lt free)
    exact inside (sameSize ▸ Heap.isFree_lt free)

/-- **An allocation after the taken blocks.** -/
theorem kmalloc_packed (packed : Packed region live kernel used) {size blocks : Nat}
    (positive : 1 ≤ size) (small : size ≤ 4294963200) (needs : blocksFor size = blocks)
    (room : (used + blocks) * peachosHeapBlockSize ≤ region.bytes) (contents : Obj) :
    ∃ ptr next, ptr = region.start + peachosHeapBlockSize * used ∧
      (kmalloc size contents).run kernel = .ok (ptr, next) ∧
      Packed region (⟨ptr, size⟩ :: live) next (used + blocks) ∧
      Placed region live (⟨ptr, size⟩ :: live) kernel contents ptr next := by
  subst needs
  have blocks := packed.total
  have inside : used + blocksFor size ≤ kernel.heap.table.total := by
    unfold peachosHeapBlockSize at *
    omega
  have nonempty := blocksFor_positive positive
  have run : FreeRun kernel.heap.isFree used (blocksFor size) :=
    fun block after before => (packed.free block (by omega)).mpr after
  have fits : HasFreeRun kernel.heap.isFree kernel.heap.table.total (blocksFor size) :=
    ⟨used, inside, run⟩
  obtain ⟨start, next, least, allocated, placed⟩ :=
    kmalloc_least packed.invariant positive small fits contents
  obtain rfl : start = used := by
    have ends := least.1.1
    have lower := (packed.free start (by omega)).mp (least.1.2 start le_rfl (by omega))
    exact Nat.le_antisymm (least.2 ⟨inside, run⟩) lower
  refine ⟨_, next, rfl, allocated, ⟨placed.invariant, fun block bound => ?_⟩, placed⟩
  have before : block < kernel.heap.table.total := by
    rw [← packed.invariant.heap.sameTotal placed.invariant.heap]
    exact bound
  rw [placed.isFree_iff packed.invariant, packed.free block before]
  unfold Extent.Covers HeapRegion.extent peachosHeapBlockSize
  dsimp only
  omega

end Allocate

/-- The number of free blocks. -/
def Heap.freeBlocks (heap : Heap) : Nat :=
  ((Finset.range heap.table.total).filter fun block => heap.isFree block = true).card

theorem Packed.freeBlocks {region : KernelRegion} {live : List Allocation} {kernel : Kernel}
    {used : Nat} (packed : Packed region live kernel used) :
    kernel.heap.freeBlocks = kernel.heap.table.total - used := by
  have same : (Finset.range kernel.heap.table.total).filter (fun block =>
      kernel.heap.isFree block = true) = Finset.Ico used kernel.heap.table.total := by
    ext block
    rw [Finset.mem_filter, Finset.mem_range, Finset.mem_Ico, and_comm]
    exact ⟨fun ⟨free, inside⟩ => ⟨(packed.free block inside).mp free, inside⟩,
      fun ⟨after, inside⟩ => ⟨(packed.free block inside).mpr after, inside⟩⟩
  rw [Heap.freeBlocks, same, Nat.card_Ico]

/-- A heap without a free block refuses every request. -/
theorem Heap.refuses_of_full {heap : Heap} (full : heap.freeBlocks = 0) {size : Nat}
    (positive : 1 ≤ size) : heap.Refuses size := by
  have taken : ∀ block, heap.isFree block = false := by
    intro block
    by_contra free
    rw [Bool.not_eq_false] at free
    have member : block ∈ (Finset.range heap.table.total).filter fun block =>
        heap.isFree block = true :=
      Finset.mem_filter.mpr ⟨Finset.mem_range.mpr (Heap.isFree_lt free), free⟩
    rw [Finset.card_eq_zero.mp full] at member
    exact absurd member (Finset.notMem_empty _)
  have nonempty := blocksFor_positive positive
  refine ⟨fun ⟨start, _, run⟩ => ?_, (endsTaken_iff heap).mpr (.inr (taken _))⟩
  have free := run start le_rfl (by omega)
  rw [taken start] at free
  cases free

theorem freshKernel_freeBlocks (region : KernelRegion) :
    (freshKernel region).heap.freeBlocks = region.bytes / peachosHeapBlockSize := by
  rw [(freshKernel_packed region).freeBlocks, freshKernel_total, Nat.sub_zero]

section Blocks

variable {region : KernelRegion} {live : List Allocation} {kernel : Kernel}

/-- An allocation takes its blocks from the free ones. -/
theorem Placed.freeBlocks {size ptr : Nat} {contents : Obj} {next : Kernel}
    (placed : Placed region live (⟨ptr, size⟩ :: live) kernel contents ptr next)
    (inv : KernelInvariant region live kernel) :
    next.heap.freeBlocks + blocksFor size = kernel.heap.freeBlocks := by
  have sameSize := inv.heap.sameTotal placed.invariant.heap
  have free := placed.isFree_iff inv
  obtain ⟨extent, named⟩ : ∃ extent, extent = region.extent ⟨ptr, size⟩ := ⟨_, rfl⟩
  have inside := placed.invariant.heap.extent_inside List.mem_cons_self
  have apart := (List.pairwise_cons.mp placed.invariant.heap.arranged.apart).1
  rw [← named] at inside apart free
  have covered : ∀ block, extent.Covers block → kernel.heap.isFree block = true := by
    intro block covers
    have before : block < kernel.heap.table.total := sameSize ▸ covers.2.trans_le inside
    refine (inv.heap.isFree_iff before).mpr fun allocation member there => ?_
    exact (apart _ (List.mem_map_of_mem member)).not_covers covers there
  have taken : (Finset.Ico extent.start (extent.start + extent.count)).card = blocksFor size := by
    rw [Nat.card_Ico, Nat.add_sub_cancel_left, named]
    rfl
  have split : (Finset.range kernel.heap.table.total).filter (fun block =>
      kernel.heap.isFree block = true) = (Finset.range next.heap.table.total).filter (fun block =>
        next.heap.isFree block = true) ∪ Finset.Ico extent.start (extent.start + extent.count) := by
    ext block
    simp only [Finset.mem_filter, Finset.mem_range, Finset.mem_union, Finset.mem_Ico, sameSize,
      free]
    constructor
    · rintro ⟨before, here⟩
      by_cases covers : extent.Covers block
      · exact .inr covers
      · exact .inl ⟨before, here, covers⟩
    · rintro (⟨before, here, _⟩ | covers)
      · exact ⟨before, here⟩
      · exact ⟨Heap.isFree_lt (covered block covers), covered block covers⟩
  have disjoint : Disjoint ((Finset.range next.heap.table.total).filter fun block =>
      next.heap.isFree block = true) (Finset.Ico extent.start (extent.start + extent.count)) := by
    refine Finset.disjoint_left.mpr fun block before covers => ?_
    exact ((free block).mp (Finset.mem_filter.mp before).2).2 (Finset.mem_Ico.mp covers)
  rw [Heap.freeBlocks, Heap.freeBlocks, split, Finset.card_union_of_disjoint disjoint, taken]

/-- **A request for one block.** It is satisfied while a block is free and takes one. -/
theorem kmalloc_block (inv : KernelInvariant region live kernel) {size : Nat}
    (oneBlock : blocksFor size = 1) (some : 1 ≤ kernel.heap.freeBlocks) (contents : Obj) :
    ∃ ptr next, (kmalloc size contents).run kernel = .ok (ptr, next) ∧
      Placed region live (⟨ptr, size⟩ :: live) kernel contents ptr next ∧
      kernel.heap.freeBlocks ≤ next.heap.freeBlocks + 1 := by
  obtain ⟨block, member⟩ := Finset.card_pos.mp some
  obtain ⟨inside, free⟩ := Finset.mem_filter.mp member
  have fits : HasFreeRun kernel.heap.isFree kernel.heap.table.total (blocksFor size) := by
    rw [oneBlock]
    refine ⟨block, Finset.mem_range.mp inside, fun other after before => ?_⟩
    rwa [show other = block by omega]
  have bounds : 1 ≤ size ∧ size ≤ 4096 := by
    unfold blocksFor peachosHeapBlockSize at oneBlock
    omega
  obtain ⟨ptr, next, run, placed⟩ := kmalloc_fits inv bounds.1 (by omega) fits contents
  refine ⟨ptr, next, run, placed, ?_⟩
  rw [← placed.freeBlocks inv, oneBlock]

/-- A supply of blocks: what it says of a state with `left` blocks goes on to hold, with one block
less, after a request for one block, and after writes that leave the heap alone. -/
structure Supply (region : KernelRegion)
    (supplies : List Allocation → Kernel → Nat → Prop) : Prop where
  invariant : ∀ {live kernel left}, supplies live kernel left → KernelInvariant region live kernel
  same : ∀ {live kernel next left}, supplies live kernel left → next.heap = kernel.heap →
    KernelInvariant region live next → supplies live next left
  block : ∀ {live kernel left size}, supplies live kernel (left + 1) → blocksFor size = 1 →
    ∀ contents, ∃ ptr next, (kmalloc size contents).run kernel = .ok (ptr, next) ∧
      Placed region live (⟨ptr, size⟩ :: live) kernel contents ptr next ∧
      supplies (⟨ptr, size⟩ :: live) next left

/-- Writes use up no block. -/
theorem Supply.writes {supplies : List Allocation → Kernel → Nat → Prop}
    (supply : Supply region supplies) {left : Nat} (supplied : supplies live kernel left)
    {next : Kernel} {owned : Nat → Prop} (only : WritesOnly owned kernel next) :
    supplies live next left :=
  supply.same supplied only.heap (only.invariant (supply.invariant supplied))

/-- The free blocks, wherever they are. -/
def FreeSupply (region : KernelRegion) (live : List Allocation) (kernel : Kernel) (left : Nat) :
    Prop :=
  KernelInvariant region live kernel ∧ left ≤ kernel.heap.freeBlocks

theorem freeSupply (region : KernelRegion) : Supply region (FreeSupply region) where
  invariant := And.left
  same := fun supplied heap inv => ⟨inv, by rw [heap]; exact supplied.2⟩
  block := by
    rintro live kernel left size ⟨inv, enough⟩ oneBlock contents
    obtain ⟨ptr, next, run, placed, fewer⟩ := kmalloc_block inv oneBlock (by omega) contents
    exact ⟨ptr, next, run, placed, placed.invariant, by omega⟩

/-- The blocks after the first `limit - left` ones, up to `limit`. -/
def PackedSupply (region : KernelRegion) (limit : Nat) (live : List Allocation) (kernel : Kernel)
    (left : Nat) : Prop :=
  ∃ used, used + left = limit ∧ Packed region live kernel used

theorem packedSupply {region : KernelRegion} {limit : Nat}
    (room : limit * peachosHeapBlockSize ≤ region.bytes) :
    Supply region (PackedSupply region limit) where
  invariant := fun ⟨_, _, packed⟩ => packed.invariant
  same := fun ⟨used, sum, packed⟩ heap inv => ⟨used, sum, inv, by rw [heap]; exact packed.free⟩
  block := by
    rintro live kernel left size ⟨used, sum, packed⟩ oneBlock contents
    have enough : (used + 1) * peachosHeapBlockSize ≤ region.bytes :=
      (Nat.mul_le_mul_right _ (by omega)).trans room
    have bounds : 1 ≤ size ∧ size ≤ 4096 := by
      unfold blocksFor peachosHeapBlockSize at oneBlock
      omega
    obtain ⟨ptr, next, _, run, packed', placed⟩ :=
      kmalloc_packed packed bounds.1 (by omega) oneBlock enough contents
    exact ⟨ptr, next, run, placed, used + 1, by omega, packed'⟩

end Blocks

end Peachos
