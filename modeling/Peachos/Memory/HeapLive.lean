import Peachos.Memory.HeapExhaustion

/-! # The live allocations of a heap

The lengths of the allocations exist only in the `HEAP_BLOCK_HAS_NEXT` chains of the
table. `HeapInvariant region live heap` says that the table encodes exactly the
allocations in `live`; `heapMalloc_spec` and `heapFree_spec` are one step each, and
`heapRun_sound` carries the invariant over every sequence of satisfiable requests and
frees of live pointers.
-/

namespace Peachos

open CInt FirstFit

/-- An aligned region smaller than 2 GiB inside the 32-bit address space. -/
structure HeapRegion where
  start : Nat
  bytes : Nat
  startAligned : start % peachosHeapBlockSize = 0
  bytesAligned : bytes % peachosHeapBlockSize = 0
  below2GiB : bytes < 2147483648
  addressable : start + bytes ≤ 4294967296

/-- The end address of the region, as the C pointer after its last byte. -/
def HeapRegion.stop (region : HeapRegion) : Nat := u32 (region.start + region.bytes)

/-- The number of blocks that hold `size` bytes. -/
def blocksFor (size : Nat) : Nat := (size + 4095) / peachosHeapBlockSize

/-- A pointer returned by `heap_malloc` and the size it was asked for. -/
structure Allocation where
  ptr : Nat
  size : Nat
  deriving DecidableEq, Repr

/-- The blocks of an allocation. -/
def HeapRegion.extent (region : HeapRegion) (allocation : Allocation) : Extent :=
  ⟨(allocation.ptr - region.start) / peachosHeapBlockSize, blocksFor allocation.size⟩

/-- The table encodes exactly the live allocations: their blocks carry their chains and
every other entry is free. -/
structure Encodes (region : HeapRegion) (live : List Allocation) (heap : Heap) : Prop where
  taken : ∀ allocation ∈ live, ∀ position, (region.extent allocation).Covers position →
    heap.table.entries[position]? = some (blockEntry (region.extent allocation) position)
  free : ∀ position < heap.table.total,
    (∀ allocation ∈ live, ¬ (region.extent allocation).Covers position) →
      heap.table.entries[position]? = some heapBlockTableEntryFree

/-- The heap lies over the region and its table encodes the live allocations, which are
block-aligned and pairwise apart. -/
structure HeapInvariant (region : HeapRegion) (live : List Allocation) (heap : Heap) : Prop where
  saddr : heap.saddr = region.start
  total : heap.table.total * peachosHeapBlockSize = region.bytes
  sized : ∀ allocation ∈ live, 1 ≤ allocation.size
  placed : ∀ allocation ∈ live,
    allocation.ptr = region.start + peachosHeapBlockSize * (region.extent allocation).start
  arranged : Arrangement heap.table.total (live.map region.extent)
  encodes : Encodes region live heap

theorem blocksFor_positive {size : Nat} (positive : 1 ≤ size) : 1 ≤ blocksFor size := by
  unfold blocksFor peachosHeapBlockSize
  omega

theorem size_le_blocksFor (size : Nat) : size ≤ peachosHeapBlockSize * blocksFor size := by
  unfold blocksFor peachosHeapBlockSize
  omega

/-- `heap_malloc` asks for the blocks that hold the size. -/
theorem heapMalloc_eq_blocks {size : Nat} (small : size ≤ 4294963200) :
    heapMalloc size = heapMallocBlocks (blocksFor size) := by
  have aligned : heapAlignValueToUpper size / peachosHeapBlockSize = blocksFor size := by
    unfold heapAlignValueToUpper blocksFor peachosHeapBlockSize
    split
    · omega
    · dsimp only
      rw [u32_of_nonneg (by omega) (by omega)]
      omega
  rw [heapMalloc, aligned]

namespace HeapInvariant

variable {region : HeapRegion} {live : List Allocation} {heap : Heap}

theorem total_lt (inv : HeapInvariant region live heap) : heap.table.total < 524288 := by
  have covered := inv.total
  have small := region.below2GiB
  unfold peachosHeapBlockSize at covered
  omega

theorem extent_nonempty (inv : HeapInvariant region live heap) {allocation : Allocation}
    (member : allocation ∈ live) : 1 ≤ (region.extent allocation).count :=
  blocksFor_positive (inv.sized allocation member)

theorem extent_inside (inv : HeapInvariant region live heap) {allocation : Allocation}
    (member : allocation ∈ live) :
    (region.extent allocation).start + (region.extent allocation).count ≤ heap.table.total :=
  inv.arranged.inside _ (List.mem_map_of_mem member)

/-- The number of blocks stays. -/
theorem sameTotal {live' : List Allocation} {next : Heap} (inv : HeapInvariant region live heap)
    (inv' : HeapInvariant region live' next) : next.table.total = heap.table.total := by
  have before := inv.total
  have after := inv'.total
  unfold peachosHeapBlockSize at before after
  omega

/-- A position is free exactly when no live allocation covers it. -/
theorem isFree_iff (inv : HeapInvariant region live heap) {position : Nat}
    (inside : position < heap.table.total) :
    heap.isFree position = true ↔
      ∀ allocation ∈ live, ¬ (region.extent allocation).Covers position := by
  constructor
  · intro free allocation member covers
    rw [Heap.isFree_of_entry (inv.encodes.taken allocation member position covers)] at free
    exact blockEntry_taken _ _ (beq_iff_eq.mp free)
  · intro uncovered
    rw [Heap.isFree_of_entry (inv.encodes.free position inside uncovered)]
    rfl

/-- The address of a block of the region does not wrap around. -/
theorem heapBlockToAddress_eq (inv : HeapInvariant region live heap) {block : Nat}
    (inside : block < heap.table.total) :
    heapBlockToAddress heap block = region.start + peachosHeapBlockSize * block := by
  have covered := inv.total
  have space := region.addressable
  have small := region.below2GiB
  unfold heapBlockToAddress
  unfold peachosHeapBlockSize at covered ⊢
  rw [inv.saddr, i32_of_range (by omega) (by omega), u32_of_nonneg (by omega) (by omega)]
  omega

/-- The block of a live pointer is the first one of its extent. -/
theorem heapAddressToBlock_eq (inv : HeapInvariant region live heap) {allocation : Allocation}
    (member : allocation ∈ live) :
    heapAddressToBlock heap allocation.ptr = (region.extent allocation).start := by
  have placed := inv.placed allocation member
  have inside := inv.extent_inside member
  have bound := inv.total_lt
  unfold heapAddressToBlock
  unfold peachosHeapBlockSize at placed ⊢
  rw [inv.saddr, placed, i32_of_range (by omega) (by omega),
    Int.tdiv_eq_ediv_of_nonneg (by omega)]
  omega

/-- Two live allocations with the same pointer are the same. -/
theorem eq_of_ptr (inv : HeapInvariant region live heap) {first second : Allocation}
    (member : first ∈ live) (other : second ∈ live) (same : first.ptr = second.ptr) :
    region.extent first = region.extent second := by
  apply inv.arranged.eq_of_start (List.mem_map_of_mem member) (List.mem_map_of_mem other)
  simp only [HeapRegion.extent, same]

/-- Live regions of memory do not overlap. -/
theorem disjoint (inv : HeapInvariant region live heap) :
    live.Pairwise fun first second =>
      first.ptr + peachosHeapBlockSize * blocksFor first.size ≤ second.ptr ∨
        second.ptr + peachosHeapBlockSize * blocksFor second.size ≤ first.ptr := by
  refine (List.pairwise_map.mp inv.arranged.apart).imp_of_mem ?_
  intro first second member other apart
  have firstPlaced := inv.placed first member
  have secondPlaced := inv.placed second other
  unfold Extent.Apart at apart
  simp only [HeapRegion.extent] at apart firstPlaced secondPlaced
  rw [firstPlaced, secondPlaced]
  unfold peachosHeapBlockSize at *
  omega

end HeapInvariant

/-- **One allocation.** A satisfiable request returns the lowest fitting run and adds one
allocation to the encoded ones. -/
theorem heapMalloc_spec {region : HeapRegion} {live : List Allocation} {heap : Heap}
    (inv : HeapInvariant region live heap) {size : Nat} (positive : 1 ≤ size)
    (small : size ≤ 4294963200)
    (fits : HasFreeRun heap.isFree heap.table.total (blocksFor size)) :
    ∃ (start : Nat) (next : Heap),
      (heapMalloc size).run heap = .ok (region.start + peachosHeapBlockSize * start, next) ∧
      IsLeast {start | start + blocksFor size ≤ heap.table.total ∧
        FreeRun heap.isFree start (blocksFor size)} start ∧
      HeapInvariant region (⟨region.start + peachosHeapBlockSize * start, size⟩ :: live) next := by
  have nonempty := blocksFor_positive positive
  have bound := inv.total_lt
  obtain ⟨start, next, run, inside, free, lowest, frame, entries⟩ :=
    heapMallocBlocks_fits (by omega) nonempty fits
  rw [inv.heapBlockToAddress_eq (by omega)] at run
  have extent : region.extent ⟨region.start + peachosHeapBlockSize * start, size⟩ =
      ⟨start, blocksFor size⟩ := by
    unfold HeapRegion.extent
    congr 1
    dsimp only
    unfold peachosHeapBlockSize
    omega
  have unowned : ∀ position, (Extent.mk start (blocksFor size)).Covers position →
      ∀ allocation ∈ live, ¬ (region.extent allocation).Covers position := by
    intro position covers
    have here := free position covers.1 covers.2
    exact (inv.isFree_iff (Heap.isFree_lt here)).mp here
  refine ⟨start, next, by rw [heapMalloc_eq_blocks small, run],
    ⟨⟨inside, free⟩, fun other held => lowest other held.1 held.2⟩, ?_⟩
  constructor
  · rw [frame.saddr, inv.saddr]
  · rw [frame.total, inv.total]
  · intro allocation member
    rcases List.mem_cons.mp member with rfl | old
    · exact positive
    · exact inv.sized allocation old
  · intro allocation member
    rcases List.mem_cons.mp member with rfl | old
    · rw [extent]
    · exact inv.placed allocation old
  · rw [frame.total, List.map_cons, extent]
    refine inv.arranged.take nonempty inside ?_
    intro position covers owner member
    obtain ⟨allocation, present, rfl⟩ := List.mem_map.mp member
    exact unowned position covers allocation present
  · constructor
    · intro allocation member position covers
      rw [entries position]
      rcases List.mem_cons.mp member with rfl | old
      · rw [extent] at covers ⊢
        rw [if_pos covers]
      · rw [if_neg (fun new => unowned position new allocation old covers)]
        exact inv.encodes.taken allocation old position covers
    · intro position before uncovered
      rw [frame.total] at before
      have outside := uncovered _ List.mem_cons_self
      rw [extent] at outside
      rw [entries position, if_neg outside]
      exact inv.encodes.free position before
        (fun allocation member => uncovered allocation (List.mem_cons_of_mem _ member))

/-- **One free.** Freeing a live pointer clears exactly its blocks and removes it from the
encoded allocations. -/
theorem heapFree_spec {region : HeapRegion} {live : List Allocation} {heap : Heap}
    (inv : HeapInvariant region live heap) {allocation : Allocation}
    (member : allocation ∈ live) :
    ∃ next, (heapFree allocation.ptr).run heap = .ok ((), next) ∧
      (∀ position, next.table.entries[position]? =
        if (region.extent allocation).Covers position then some heapBlockTableEntryFree
        else heap.table.entries[position]?) ∧
      HeapInvariant region (live.filter fun other => other.ptr ≠ allocation.ptr) next := by
  have bound := inv.total_lt
  have inside := inv.extent_inside member
  obtain ⟨next, run, frame, entries⟩ := heapMarkBlocksFree_chain (region.extent allocation)
    (by omega) (inv.extent_nonempty member) inside (inv.encodes.taken allocation member)
  have kept : ∀ other ∈ live.filter (fun other => other.ptr ≠ allocation.ptr),
      other ∈ live ∧ ∀ position, (region.extent other).Covers position →
        ¬ (region.extent allocation).Covers position := by
    intro other present
    obtain ⟨old, different⟩ := List.mem_filter.mp present
    refine ⟨old, fun position covers shared => ?_⟩
    have same := inv.arranged.eq_of_covers (List.mem_map_of_mem old) (List.mem_map_of_mem member)
      covers shared
    refine absurd ?_ (of_decide_eq_true different)
    rw [inv.placed other old, inv.placed allocation member, same]
  refine ⟨next, ?_, entries, ?_⟩
  · rw [heapFree, Exec.bind_of_ok (Exec.run_read _ _), inv.heapAddressToBlock_eq member, run]
  constructor
  · rw [frame.saddr, inv.saddr]
  · rw [frame.total, inv.total]
  · exact fun other present => inv.sized other (kept other present).1
  · exact fun other present => inv.placed other (kept other present).1
  · rw [frame.total]
    exact inv.arranged.release (List.filter_sublist.map _)
  · constructor
    · intro other present position covers
      obtain ⟨old, apart⟩ := kept other present
      rw [entries position, if_neg (apart position covers)]
      exact inv.encodes.taken other old position covers
    · intro position before uncovered
      rw [frame.total] at before
      rw [entries position]
      by_cases freed : (region.extent allocation).Covers position
      · rw [if_pos freed]
      · rw [if_neg freed]
        apply inv.encodes.free position before
        intro other old covers
        by_cases same : other.ptr = allocation.ptr
        · rw [inv.eq_of_ptr old member same] at covers
          exact freed covers
        · exact uncovered other (List.mem_filter.mpr ⟨old, decide_eq_true same⟩) covers

/-- A created heap has no live allocation. -/
theorem heapCreate_invariant (region : HeapRegion) {before heap : Heap} {table : HeapTable}
    (created : heapCreate before region.start region.stop table = (0, heap)) :
    HeapInvariant region [] heap := by
  unfold heapCreate at created
  split at created
  · have code : -einvagr = 0 := congrArg Prod.fst created
    exact absurd code (by decide)
  · dsimp only at created
    have valid : heapValidateTable region.start region.stop table = 0 ∧
        heap = ⟨⟨List.replicate table.total heapBlockTableEntryFree⟩, region.start⟩ := by
      split at created
      · next failed =>
          have code := congrArg Prod.fst created
          dsimp only at code
          omega
      · exact ⟨congrArg Prod.fst created, (congrArg Prod.snd created).symm⟩
    obtain ⟨checked, rfl⟩ := valid
    have size : table.total = u32 (region.stop - region.start) / peachosHeapBlockSize := by
      by_contra wrong
      simp only [heapValidateTable, ne_eq, wrong, not_false_eq_true, ↓reduceIte] at checked
      exact absurd checked (by decide)
    have length : u32 ((region.stop : Int) - region.start) = region.bytes := by
      have space := region.addressable
      have small := region.below2GiB
      unfold HeapRegion.stop u32
      omega
    have fresh : ∀ position < table.total,
        (List.replicate table.total heapBlockTableEntryFree)[position]? =
          some heapBlockTableEntryFree := by
      intro position inside
      rw [List.getElem?_replicate, if_pos inside]
    refine ⟨rfl, ?_, fun _ member => (List.not_mem_nil member).elim,
      fun _ member => (List.not_mem_nil member).elim, .empty _,
      fun _ member => (List.not_mem_nil member).elim, ?_⟩
    · have aligned := region.bytesAligned
      rw [length] at size
      simp only [HeapTable.total, List.length_replicate]
      unfold HeapTable.total peachosHeapBlockSize at *
      omega
    · intro position inside _
      apply fresh position
      simpa only [HeapTable.total, List.length_replicate] using inside

/-- The heaps reached from `heap_create` by satisfiable requests and frees of live
pointers, in any order, with the allocations that are live. -/
inductive HeapRun (region : HeapRegion) : List Allocation → Heap → Prop where
  | create {before heap : Heap} {table : HeapTable}
      (created : heapCreate before region.start region.stop table = (0, heap)) :
      HeapRun region [] heap
  | malloc {live : List Allocation} {heap next : Heap} {size ptr : Nat}
      (reached : HeapRun region live heap) (positive : 1 ≤ size) (small : size ≤ 4294963200)
      (fits : HasFreeRun heap.isFree heap.table.total (blocksFor size))
      (run : (heapMalloc size).run heap = .ok (ptr, next)) :
      HeapRun region (⟨ptr, size⟩ :: live) next
  | free {live : List Allocation} {heap next : Heap} {allocation : Allocation}
      (reached : HeapRun region live heap) (member : allocation ∈ live)
      (run : (heapFree allocation.ptr).run heap = .ok ((), next)) :
      HeapRun region (live.filter fun other => other.ptr ≠ allocation.ptr) next

/-- Every step of a run keeps the invariant. -/
theorem HeapRun.invariant {region : HeapRegion} {live : List Allocation} {heap : Heap}
    (reached : HeapRun region live heap) : HeapInvariant region live heap := by
  induction reached with
  | create created => exact heapCreate_invariant region created
  | malloc reached positive small fits run ih =>
      obtain ⟨start, next, done, _, inv⟩ := heapMalloc_spec ih positive small fits
      rw [run] at done
      cases done
      exact inv
  | free reached member run ih =>
      obtain ⟨next, done, _, inv⟩ := heapFree_spec ih member
      rw [run] at done
      cases done
      exact inv

/-- What a heap with the given live allocations provides. -/
structure HeapSound (region : HeapRegion) (live : List Allocation) (heap : Heap) : Prop where
  encodes : Encodes region live heap
  aligned : ∀ allocation ∈ live, allocation.ptr % peachosHeapBlockSize = 0
  contained : ∀ allocation ∈ live, region.start ≤ allocation.ptr ∧
    allocation.ptr + peachosHeapBlockSize * blocksFor allocation.size ≤
      region.start + region.bytes
  holds : ∀ allocation ∈ live,
    allocation.size ≤ peachosHeapBlockSize * blocksFor allocation.size
  disjoint : live.Pairwise fun first second =>
    first.ptr + peachosHeapBlockSize * blocksFor first.size ≤ second.ptr ∨
      second.ptr + peachosHeapBlockSize * blocksFor second.size ≤ first.ptr
  mallocs : ∀ size, 1 ≤ size → size ≤ 4294963200 →
    HasFreeRun heap.isFree heap.table.total (blocksFor size) → ∃ (start : Nat) (next : Heap),
      (heapMalloc size).run heap = .ok (region.start + peachosHeapBlockSize * start, next) ∧
      IsLeast {start | start + blocksFor size ≤ heap.table.total ∧
        FreeRun heap.isFree start (blocksFor size)} start
  frees : ∀ allocation ∈ live, ∃ next,
    (heapFree allocation.ptr).run heap = .ok ((), next) ∧
      ∀ position, next.table.entries[position]? =
        if (region.extent allocation).Covers position then some heapBlockTableEntryFree
        else heap.table.entries[position]?

/-- **The heap over every run.** -/
theorem heapRun_sound {region : HeapRegion} {live : List Allocation} {heap : Heap}
    (reached : HeapRun region live heap) : HeapSound region live heap := by
  have inv := reached.invariant
  refine ⟨inv.encodes, ?_, ?_, fun allocation _ => size_le_blocksFor _, inv.disjoint, ?_, ?_⟩
  · intro allocation member
    have placed := inv.placed allocation member
    have aligned := region.startAligned
    unfold peachosHeapBlockSize at *
    omega
  · intro allocation member
    have placed := inv.placed allocation member
    have inside := inv.extent_inside member
    have covered := inv.total
    have count : (region.extent allocation).count = blocksFor allocation.size := rfl
    unfold peachosHeapBlockSize at *
    omega
  · intro size positive small fits
    obtain ⟨start, next, run, least, _⟩ := heapMalloc_spec inv positive small fits
    exact ⟨start, next, run, least⟩
  · intro allocation member
    obtain ⟨next, run, entries, _⟩ := heapFree_spec inv member
    exact ⟨next, run, entries⟩

/-- A region of three blocks. -/
def threeBlocks : HeapRegion where
  start := 0x01000000
  bytes := 12288
  startAligned := by decide
  bytesAligned := by decide
  below2GiB := by decide
  addressable := by decide

/-- After allocating two blocks and then one, and freeing the first pointer, the one-block
allocation is encoded alone. -/
theorem threeBlocks_sound :
    HeapSound threeBlocks [⟨0x01002000, 4096⟩]
      { saddr := 0x01000000, table := ⟨[0x00, 0x00, 0x41]⟩ } := by
  have created : HeapRun threeBlocks [] ⟨⟨[0x00, 0x00, 0x00]⟩, 0x01000000⟩ :=
    @HeapRun.create _ ⟨⟨[]⟩, 0⟩ _ ⟨[0xFF, 0x41, 0x07]⟩ rfl
  have first : HeapRun threeBlocks [⟨0x01000000, 5000⟩] ⟨⟨[0xC1, 0x01, 0x00]⟩, 0x01000000⟩ :=
    .malloc created (by decide) (by decide) (by decide) rfl
  have second : HeapRun threeBlocks [⟨0x01002000, 4096⟩, ⟨0x01000000, 5000⟩]
      ⟨⟨[0xC1, 0x01, 0x41]⟩, 0x01000000⟩ :=
    .malloc first (by decide) (by decide) (by decide) rfl
  exact heapRun_sound (.free second (List.mem_cons_of_mem _ List.mem_cons_self) rfl)

end Peachos
