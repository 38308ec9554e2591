import Peachos.Kernel.State
import Peachos.Memory.HeapRounding

/-! # Allocation under the kernel invariant

`kmalloc` either answers null and changes nothing, or returns a pointer that no live
allocation has and gives it its contents; `kfree` removes one object. Both keep
`KernelInvariant`.

A request for no blocks is not refused: it returns the first block of the free run at the
end of the table without marking it. The object there owns no block, and it is gone as
soon as a later allocation takes the block.
-/

namespace Peachos

open CInt FirstFit

/-- **One allocation of the heap, in general.** A completed request is refused, or names a
free block and takes nothing, or is a fitting one. -/
theorem heapMalloc_completed {region : HeapRegion} {live : List Allocation} {heap next : Heap}
    (inv : HeapInvariant region live heap) {size ptr : Nat} (small : size ≤ 4294963200)
    (run : (heapMalloc size).run heap = .ok (ptr, next)) :
    (next = heap ∧ (ptr = 0 ∨ size = 0 ∧ ∃ block, heap.isFree block = true ∧
        ptr = region.start + peachosHeapBlockSize * block)) ∨
      1 ≤ size ∧ HasFreeRun heap.isFree heap.table.total (blocksFor size) := by
  cases heapMalloc_answered inv (by omega) run with
  | refused null same => exact .inl ⟨same, .inl null⟩
  | unmarked inexact free address same =>
      unfold ExactSize at inexact
      exact .inl ⟨same, .inr ⟨by omega, _, Heap.isFree_trailingStart free, address⟩⟩
  | marked exact start address inside free inv' => exact .inr ⟨exact.1, start, inside, free⟩

section Bounds

variable {region : KernelRegion} {live : List Allocation} {kernel : Kernel}
  {allocation : Allocation}

/-- A live pointer is the address of a page. -/
theorem KernelInvariant.aligned (inv : KernelInvariant region live kernel)
    (member : allocation ∈ live) : allocation.ptr % peachosHeapBlockSize = 0 := by
  have placed := inv.heap.placed allocation member
  have start := region.startAligned
  unfold peachosHeapBlockSize at *
  omega

/-- A live allocation lies inside the region. -/
theorem KernelInvariant.inside (inv : KernelInvariant region live kernel)
    (member : allocation ∈ live) : region.start ≤ allocation.ptr ∧
      allocation.ptr + peachosHeapBlockSize * blocksFor allocation.size ≤
        region.start + region.bytes := by
  have placed := inv.heap.placed allocation member
  have inside := inv.heap.extent_inside member
  have covered := inv.heap.total
  have count : (region.extent allocation).count = blocksFor allocation.size := rfl
  unfold peachosHeapBlockSize at *
  omega

/-- A live allocation ends at an address below 2 GiB. -/
theorem KernelInvariant.below (inv : KernelInvariant region live kernel)
    (member : allocation ∈ live) :
    allocation.ptr + peachosHeapBlockSize * blocksFor allocation.size ≤ 2147483648 :=
  (inv.inside member).2.trans region.positive

/-- An object lies in the region. -/
theorem KernelInvariant.obj_above (inv : KernelInvariant region live kernel) {ptr : Nat}
    (present : (kernel.objs ptr).isSome) : region.start ≤ ptr := by
  rcases inv.owned ptr present with ⟨allocation, member, rfl⟩ | ⟨block, _, _, rfl⟩
  · exact (inv.inside member).1
  · exact Nat.le_add_right _ _

/-- An object lies at the address of a page below 2 GiB. -/
theorem KernelInvariant.obj_placed (inv : KernelInvariant region live kernel) {ptr : Nat}
    (present : (kernel.objs ptr).isSome) :
    ptr % peachosHeapBlockSize = 0 ∧ ptr ≤ 2147483648 := by
  rcases inv.owned ptr present with ⟨allocation, member, rfl⟩ | ⟨block, inside, _, rfl⟩
  · exact ⟨inv.aligned member, (Nat.le_add_right _ _).trans (inv.below member)⟩
  · have covered := inv.heap.total
    have start := region.startAligned
    have positive := region.positive
    unfold peachosHeapBlockSize at *
    omega

end Bounds

/-- The two states differ in the heap and its objects only. -/
def Kernel.SameGlobals (kernel next : Kernel) : Prop :=
  next = { kernel with heap := next.heap, objs := next.objs }

theorem Kernel.SameGlobals.trans {first second third : Kernel} (before : first.SameGlobals second)
    (after : second.SameGlobals third) : first.SameGlobals third := by
  unfold Kernel.SameGlobals at *
  rw [after, before]

/-- The outcome of a `kmalloc` that returned `ptr`: the live allocations are now `live'`,
the contents are at `ptr`, which no live allocation had, and other objects stay or lay in
free blocks. -/
structure Placed (region : KernelRegion) (live live' : List Allocation) (kernel : Kernel)
    (contents : Obj) (ptr : Nat) (next : Kernel) : Prop where
  notNull : ptr ≠ 0
  invariant : KernelInvariant region live' next
  grown : live ⊆ live'
  fresh : ∀ allocation ∈ live, allocation.ptr ≠ ptr
  present : next.objs ptr = some contents
  kept : ∀ allocation ∈ live, next.objs allocation.ptr = kernel.objs allocation.ptr
  old : ∀ other found, other ≠ ptr → next.objs other = some found →
    kernel.objs other = some found
  globals : kernel.SameGlobals next

section Place

variable {kernel : Kernel} {ptr size other : Nat} {contents : Obj}

@[simp] theorem Kernel.place_objs_self : (kernel.place ptr size contents).objs ptr =
    some contents :=
  if_pos rfl

theorem Kernel.place_objs_of_outside (different : other ≠ ptr)
    (outside : ¬ (ptr < other ∧ other < ptr + size)) :
    (kernel.place ptr size contents).objs other = kernel.objs other := by
  simp only [Kernel.place, different, outside, if_false]

theorem Kernel.place_objs_eq_some {found : Obj} (different : other ≠ ptr)
    (present : (kernel.place ptr size contents).objs other = some found) :
    kernel.objs other = some found ∧ ¬ (ptr < other ∧ other < ptr + size) := by
  simp only [Kernel.place, different, if_false] at present
  by_cases inside : ptr < other ∧ other < ptr + size
  · rw [if_pos inside] at present
    cases present
  · rw [if_neg inside] at present
    exact ⟨present, inside⟩

end Place

section Requests

variable {region : KernelRegion} {live : List Allocation} {kernel : Kernel}

theorem kmalloc_eq_place {size ptr : Nat} {contents : Obj} {heap : Heap}
    (run : (heapMalloc size).run kernel.heap = .ok (ptr, heap)) (notNull : ptr ≠ 0) :
    (kmalloc size contents).run kernel =
      .ok (ptr, { kernel with heap := heap }.place ptr size contents) := by
  have done : (onHeap (heapMalloc size)).run kernel = .ok (ptr, { kernel with heap := heap }) :=
    Exec.zoom_of_ok run
  rw [kmalloc, Exec.bind_of_ok done, if_neg notNull, Exec.bind_of_ok (Exec.run_update _ _),
    Exec.run_pure]

/-- A free block stays free when an extent that does not cover it is marked. -/
theorem HeapInvariant.isFree_of_cons {region : HeapRegion} {heap next : Heap}
    (inv : HeapInvariant region live heap) {taken : Allocation}
    (inv' : HeapInvariant region (taken :: live) next) {block : Nat}
    (free : heap.isFree block = true) (outside : ¬ (region.extent taken).Covers block) :
    next.isFree block = true := by
  have inside := Heap.isFree_lt free
  have sameSize := inv.sameTotal inv'
  apply (inv'.isFree_iff (by omega)).mpr
  intro allocation member
  rcases List.mem_cons.mp member with rfl | old
  · exact outside
  · exact (inv.isFree_iff inside).mp free allocation old

/-- **A satisfiable request.** -/
theorem kmalloc_fits (inv : KernelInvariant region live kernel) {size : Nat}
    (positive : 1 ≤ size) (small : size ≤ 4294963200)
    (fits : HasFreeRun kernel.heap.isFree kernel.heap.table.total (blocksFor size))
    (contents : Obj) :
    ∃ ptr next, (kmalloc size contents).run kernel = .ok (ptr, next) ∧
      Placed region live (⟨ptr, size⟩ :: live) kernel contents ptr next := by
  obtain ⟨start, heap, run, _, inv'⟩ := heapMalloc_spec inv.heap positive small fits
  have above := region.notNull
  have notNull : region.start + peachosHeapBlockSize * start ≠ 0 := by omega
  have apart := List.pairwise_cons.mp inv'.disjoint
  have nonempty : ∀ allocation ∈ live, 1 ≤ blocksFor allocation.size :=
    fun allocation member => blocksFor_positive (inv.heap.sized allocation member)
  have outside : ∀ allocation ∈ live,
      allocation.ptr ≠ region.start + peachosHeapBlockSize * start ∧
      ¬ (region.start + peachosHeapBlockSize * start < allocation.ptr ∧
        allocation.ptr < region.start + peachosHeapBlockSize * start + size) := by
    intro allocation member
    have away := apart.1 allocation member
    dsimp only at away
    have here := nonempty allocation member
    have covers := size_le_blocksFor size
    have taken := blocksFor_positive positive
    unfold peachosHeapBlockSize at *
    omega
  have kept : ∀ allocation ∈ live, ({ kernel with heap := heap }.place
      (region.start + peachosHeapBlockSize * start) size contents).objs allocation.ptr =
        kernel.objs allocation.ptr := by
    intro allocation member
    exact Kernel.place_objs_of_outside (outside allocation member).1 (outside allocation member).2
  refine ⟨_, _, kmalloc_eq_place run notNull, notNull, ⟨inv', ?_, ?_⟩, List.subset_cons_self ..,
    fun allocation member => (outside allocation member).1, Kernel.place_objs_self, kept, ?_, rfl⟩
  · intro allocation member
    rcases List.mem_cons.mp member with rfl | old
    · rw [Kernel.place_objs_self]
      rfl
    · rw [kept allocation old]
      exact inv.held allocation old
  · intro other present
    by_cases same : other = region.start + peachosHeapBlockSize * start
    · exact .inl ⟨_, List.mem_cons_self, same.symm⟩
    · obtain ⟨found, here⟩ := Option.isSome_iff_exists.mp present
      obtain ⟨before, away⟩ := Kernel.place_objs_eq_some same here
      rcases inv.owned other (Option.isSome_iff_exists.mpr ⟨found, before⟩) with
        ⟨allocation, member, rfl⟩ | ⟨block, inside, free, rfl⟩
      · exact .inl ⟨allocation, List.mem_cons_of_mem _ member, rfl⟩
      · have still := inv.heap.isFree_of_cons inv' free (by
          unfold Extent.Covers HeapRegion.extent blocksFor peachosHeapBlockSize at *
          dsimp only
          omega)
        exact .inr ⟨block, Heap.isFree_lt still, still, rfl⟩
  · intro other found different present
    exact (Kernel.place_objs_eq_some different present).1

/-- A satisfiable request gets the lowest fitting run. -/
theorem kmalloc_least (inv : KernelInvariant region live kernel) {size : Nat}
    (positive : 1 ≤ size) (small : size ≤ 4294963200)
    (fits : HasFreeRun kernel.heap.isFree kernel.heap.table.total (blocksFor size))
    (contents : Obj) :
    ∃ start next, IsLeast {start | start + blocksFor size ≤ kernel.heap.table.total ∧
        FreeRun kernel.heap.isFree start (blocksFor size)} start ∧
      (kmalloc size contents).run kernel =
        .ok (region.start + peachosHeapBlockSize * start, next) ∧
      Placed region live (⟨region.start + peachosHeapBlockSize * start, size⟩ :: live) kernel
        contents (region.start + peachosHeapBlockSize * start) next := by
  obtain ⟨start, heap, done, least, _⟩ := heapMalloc_spec inv.heap positive small fits
  obtain ⟨ptr, next, run, placed⟩ := kmalloc_fits inv positive small fits contents
  have above := region.notNull
  have same := run
  rw [kmalloc_eq_place done (by omega)] at same
  obtain ⟨rfl, rfl⟩ := Prod.mk.inj (Except.ok.inj same)
  exact ⟨start, _, least, run, placed⟩

/-- The heap has no run for a request of `size`, and its last block is taken. -/
def Heap.Refuses (heap : Heap) (size : Nat) : Prop :=
  ¬ HasFreeRun heap.isFree heap.table.total (blocksFor size) ∧ heap.EndsTaken

/-- A refused request. -/
theorem kmalloc_refused (inv : KernelInvariant region live kernel) {size : Nat}
    (positive : 1 ≤ size) (small : size ≤ 4294963200) (refuses : kernel.heap.Refuses size)
    (contents : Obj) : (kmalloc size contents).run kernel = .ok (0, kernel) := by
  have bound := inv.heap.total_lt
  have done : (onHeap (heapMalloc size)).run kernel =
      .ok (0, { kernel with heap := kernel.heap }) := by
    refine Exec.zoom_of_ok ?_
    rw [heapMalloc_eq_blocks small]
    exact heapMallocBlocks_refused (by omega) (blocksFor_positive positive) refuses.1 refuses.2
  rw [kmalloc, Exec.bind_of_ok done, if_pos rfl, Exec.run_pure]

/-- **One request, in general.** -/
theorem kmalloc_completed (inv : KernelInvariant region live kernel) {size ptr : Nat}
    (small : size ≤ 4294963200) {contents : Obj} {next : Kernel}
    (run : (kmalloc size contents).run kernel = .ok (ptr, next)) :
    (ptr = 0 ∧ next = kernel) ∨ (size = 0 ∧ Placed region live live kernel contents ptr next) ∨
      (1 ≤ size ∧ Placed region live (⟨ptr, size⟩ :: live) kernel contents ptr next) := by
  obtain ⟨found, middle, started, placed⟩ := Exec.bind_eq_ok.mp run
  obtain ⟨heap, done, rfl⟩ := Exec.zoom_eq_ok.mp started
  rcases heapMalloc_completed inv.heap small done with ⟨rfl, answer⟩ | ⟨positive, fits⟩
  · by_cases null : found = 0
    · rw [if_pos null] at placed
      cases placed
      exact .inl ⟨rfl, rfl⟩
    · right; left
      obtain ⟨rfl, block, free, address⟩ := answer.resolve_left null
      rw [kmalloc_eq_place done null] at run
      cases run
      have unowned : ∀ allocation ∈ live, allocation.ptr ≠ ptr := by
        intro allocation member same
        have covers := inv.heap.extent_nonempty member
        have start := inv.heap.placed allocation member
        refine (inv.heap.isFree_iff (Heap.isFree_lt free)).mp free allocation member ?_
        unfold Extent.Covers
        unfold peachosHeapBlockSize at start address
        omega
      have kept : ∀ other, other ≠ ptr →
          (kernel.place ptr 0 contents).objs other = kernel.objs other := by
        intro other different
        exact Kernel.place_objs_of_outside different (by omega)
      refine ⟨rfl, null, ⟨inv.heap, ?_, ?_⟩, List.Subset.refl _, unowned,
        Kernel.place_objs_self, fun allocation member => kept _ (unowned allocation member), ?_,
        rfl⟩
      · intro allocation member
        rw [kept _ (unowned allocation member)]
        exact inv.held allocation member
      · intro other present
        by_cases same : other = ptr
        · exact .inr ⟨block, Heap.isFree_lt free, free, same.trans address⟩
        · rw [kept other same] at present
          exact inv.owned other present
      · intro other found different present
        exact (Kernel.place_objs_eq_some different present).1
  · obtain ⟨_, _, done', placed'⟩ := kmalloc_fits inv positive small fits contents
    rw [run] at done'
    cases done'
    exact .inr (.inr ⟨positive, placed'⟩)

/-- A request for bytes that was not refused is a new live allocation. -/
theorem kmalloc_positive (inv : KernelInvariant region live kernel) {size ptr : Nat}
    (positive : 1 ≤ size) (small : size ≤ 4294963200) {contents : Obj} {next : Kernel}
    (run : (kmalloc size contents).run kernel = .ok (ptr, next)) :
    (ptr = 0 ∧ next = kernel) ∨
      Placed region live (⟨ptr, size⟩ :: live) kernel contents ptr next := by
  rcases kmalloc_completed inv small run with refused | ⟨empty, _⟩ | ⟨_, placed⟩
  · exact .inl refused
  · omega
  · exact .inr placed

/-- A completed request is refused, or there was a run for it. -/
theorem kmalloc_cases (inv : KernelInvariant region live kernel) {size ptr : Nat}
    (positive : 1 ≤ size) (small : size ≤ 4294963200) {contents : Obj} {next : Kernel}
    (run : (kmalloc size contents).run kernel = .ok (ptr, next)) :
    (kernel.heap.Refuses size ∧ ptr = 0 ∧ next = kernel) ∨
      (HasFreeRun kernel.heap.isFree kernel.heap.table.total (blocksFor size) ∧
        Placed region live (⟨ptr, size⟩ :: live) kernel contents ptr next) := by
  by_cases fits : HasFreeRun kernel.heap.isFree kernel.heap.table.total (blocksFor size)
  · obtain ⟨_, _, done, placed⟩ := kmalloc_fits inv positive small fits contents
    rw [run] at done
    obtain ⟨rfl, rfl⟩ := Prod.mk.inj (Except.ok.inj done)
    exact .inr ⟨fits, placed⟩
  by_cases taken : kernel.heap.EndsTaken
  · rw [kmalloc_refused inv positive small ⟨fits, taken⟩] at run
    cases run
    exact .inl ⟨⟨fits, taken⟩, rfl, rfl⟩
  · obtain ⟨_, _, started, _⟩ := Exec.bind_eq_ok.mp run
    obtain ⟨_, done, _⟩ := Exec.zoom_eq_ok.mp started
    rw [heapMalloc_overrun inv.heap ⟨positive, small⟩ fits taken] at done
    cases done

/-- The heap has a run for a request, or the request is for no bytes and the last block is free. -/
def Heap.Grants (heap : Heap) (size : Nat) : Prop :=
  1 ≤ size ∧ HasFreeRun heap.isFree heap.table.total (blocksFor size) ∨
    size = 0 ∧ ¬ heap.EndsTaken

/-- **A pointer is returned** for the requests that the heap grants. -/
theorem kmalloc_granted (inv : KernelInvariant region live kernel) {size : Nat}
    (small : size ≤ 4294963200) (contents : Obj) :
    kernel.heap.Grants size ↔
      ∃ ptr next, (kmalloc size contents).run kernel = .ok (ptr, next) ∧ ptr ≠ 0 := by
  have above := region.notNull
  have empty := heapMalloc_not_exact inv.heap (show 0 < 4294967296 by decide) (by decide)
  constructor
  · rintro (⟨positive, fits⟩ | ⟨rfl, free⟩)
    · obtain ⟨ptr, next, run, placed⟩ := kmalloc_fits inv positive small fits contents
      exact ⟨ptr, next, run, placed.notNull⟩
    · rw [if_neg free] at empty
      exact ⟨_, _, kmalloc_eq_place empty (by omega), by omega⟩
  · rintro ⟨ptr, next, run, notNull⟩
    rcases Nat.eq_zero_or_pos size with rfl | positive
    · refine .inr ⟨rfl, fun taken => notNull ?_⟩
      rw [if_pos taken] at empty
      obtain ⟨found, _, started, rest⟩ := Exec.bind_eq_ok.mp run
      obtain ⟨_, done, rfl⟩ := Exec.zoom_eq_ok.mp started
      rw [empty] at done
      cases done
      rw [if_pos rfl] at rest
      cases rest
      rfl
    · rcases kmalloc_cases inv positive small run with ⟨_, null, _⟩ | ⟨fits, _⟩
      · exact absurd null notNull
      · exact .inl ⟨positive, fits⟩

/-- The invariant is about the heap and the objects. -/
theorem KernelInvariant.of_same (inv : KernelInvariant region live kernel) {next : Kernel}
    (heap : next.heap = kernel.heap) (objs : next.objs = kernel.objs) :
    KernelInvariant region live next := by
  refine ⟨by rw [heap]; exact inv.heap, fun allocation member => ?_, fun ptr present => ?_⟩
  · rw [objs]
    exact inv.held allocation member
  · rw [objs] at present
    rw [heap]
    exact inv.owned ptr present

/-- There is no object at the null pointer. -/
theorem KernelInvariant.null (inv : KernelInvariant region live kernel) :
    kernel.objs 0 = none := by
  by_contra present
  have above := region.notNull
  rcases inv.owned 0 (Option.isSome_iff_ne_none.mpr present) with
    ⟨allocation, member, same⟩ | ⟨block, _, _, same⟩
  · have placed := inv.heap.placed allocation member
    omega
  · omega

/-- A request whose result is used as an object was not refused. -/
theorem kmalloc_used (inv : KernelInvariant region live kernel) {size ptr : Nat}
    (positive : 1 ≤ size) (small : size ≤ 4294963200) {contents : Obj} {next : Kernel}
    (run : (kmalloc size contents).run kernel = .ok (ptr, next))
    (used : (next.objs ptr).isSome) :
    Placed region live (⟨ptr, size⟩ :: live) kernel contents ptr next := by
  rcases kmalloc_positive inv positive small run with ⟨rfl, rfl⟩ | placed
  · rw [inv.null] at used
    cases used
  · exact placed

/-- Freeing a block that is free already writes back its entry. -/
theorem heapFree_of_free {heap : Heap} {region : HeapRegion}
    (inv : HeapInvariant region live heap) {block : Nat} (free : heap.isFree block = true) :
    (heapFree (region.start + peachosHeapBlockSize * block)).run heap = .ok ((), heap) := by
  have inside := Heap.isFree_lt free
  have bound := inv.total_lt
  have index : heapAddressToBlock heap (region.start + peachosHeapBlockSize * block) = block := by
    unfold heapAddressToBlock peachosHeapBlockSize
    rw [inv.saddr, i32_of_range (by omega) (by omega), Int.tdiv_eq_ediv_of_nonneg (by omega)]
    omega
  have entry := inv.encodes.free block inside ((inv.isFree_iff inside).mp free)
  have length : ((heap.table.total : Int) - block).toNat = heap.table.total - block - 1 + 1 := by
    omega
  have same : heap.table.entries.set block heapBlockTableEntryFree = heap.table.entries := by
    have here := (List.getElem?_eq_some_iff.mp entry).2
    rw [← here, List.set_getElem_self]
  rw [heapFree, Exec.bind_of_ok (Exec.run_read _ _), index, heapMarkBlocksFree,
    Exec.bind_of_ok (Exec.run_read _ _), i32_natCast (by omega), length, heapMarkBlocksFreeLoop,
    Exec.bind_of_ok (readEntry_at entry), Exec.bind_of_ok (writeEntry_at inside _),
    if_pos (by decide), same, Exec.run_pure]

/-- **One free.** -/
theorem kfree_spec (inv : KernelInvariant region live kernel) {ptr : Nat}
    (present : (kernel.objs ptr).isSome) :
    ∃ heap, (kfree ptr).run kernel = .ok ((), { kernel with heap := heap }.setObj ptr none) ∧
      KernelInvariant region (live.filter fun allocation => allocation.ptr ≠ ptr)
        ({ kernel with heap := heap }.setObj ptr none) := by
  have released : ∃ heap, (heapFree ptr).run kernel.heap = .ok ((), heap) ∧
      HeapInvariant region.toHeapRegion (live.filter fun allocation => allocation.ptr ≠ ptr) heap ∧
      ∀ block, kernel.heap.isFree block = true → heap.isFree block = true := by
    rcases inv.owned ptr present with ⟨allocation, member, rfl⟩ | ⟨block, inside, free, rfl⟩
    · obtain ⟨heap, run, entries, inv'⟩ := heapFree_spec inv.heap member
      refine ⟨heap, run, inv', fun block free => ?_⟩
      unfold Heap.isFree at free ⊢
      rw [entries block]
      by_cases covered : (region.extent allocation).Covers block
      · rw [if_pos covered]
        rfl
      · rw [if_neg covered]
        exact free
    · have unowned : live.filter (fun allocation =>
          allocation.ptr ≠ region.start + peachosHeapBlockSize * block) = live := by
        apply List.filter_eq_self.mpr
        intro allocation member
        apply decide_eq_true
        intro same
        have covers := inv.heap.extent_nonempty member
        have start := inv.heap.placed allocation member
        refine (inv.heap.isFree_iff inside).mp free allocation member ?_
        unfold Extent.Covers
        unfold peachosHeapBlockSize at start same
        omega
      rw [unowned]
      exact ⟨kernel.heap, heapFree_of_free inv.heap free, inv.heap, fun _ still => still⟩
  obtain ⟨heap, run, inv', still⟩ := released
  have done : (onHeap (heapFree ptr)).run kernel = .ok ((), { kernel with heap := heap }) :=
    Exec.zoom_of_ok run
  refine ⟨heap, ?_, inv', ?_, ?_⟩
  · rw [kfree, Exec.bind_of_ok (Exec.run_read _ _), if_pos present, Exec.bind_of_ok done,
      Exec.run_update]
  · intro allocation member
    obtain ⟨old, different⟩ := List.mem_filter.mp member
    rw [Kernel.setObj_objs_of_ne _ _ (of_decide_eq_true different)]
    exact inv.held allocation old
  · intro other found
    by_cases same : other = ptr
    · rw [same, Kernel.setObj_objs_self] at found
      cases found
    · rw [Kernel.setObj_objs_of_ne _ _ same] at found
      rcases inv.owned other found with ⟨allocation, member, rfl⟩ | ⟨block, _, free, rfl⟩
      · exact .inl ⟨allocation, List.mem_filter.mpr ⟨member, decide_eq_true same⟩, rfl⟩
      · exact .inr ⟨block, Heap.isFree_lt (still block free), still block free, rfl⟩

/-- A completed `kfree` was of an object. -/
theorem kfree_eq_ok {ptr : Nat} {done : Unit} {final : Kernel}
    (run : (kfree ptr).run kernel = .ok (done, final)) : (kernel.objs ptr).isSome := by
  by_contra absent
  rw [kfree, Exec.bind_of_ok (Exec.run_read _ _), if_neg absent, Exec.run_fault] at run
  cases run

end Requests

end Peachos
