import Peachos.Kernel.Room

/-! # Room over runs

What an operation takes from the heap is measured at a run of free blocks: after it the run is
shorter by as many blocks as were allocated (`Heap.Takes`), and freeing does not shorten it.
-/

namespace Peachos

open FirstFit

/-- A run of free blocks is shorter by `count` blocks at most. -/
def Heap.Takes (heap : Heap) (count : Nat) (next : Heap) : Prop :=
  ∀ lower upper, heap.Room lower upper → lower + count ≤ upper →
    next.Room (lower + count) upper

theorem Heap.Takes.refl (heap : Heap) : heap.Takes 0 heap := fun _ _ room _ => room

theorem Heap.Takes.trans {heap middle next : Heap} {first second : Nat}
    (taken : heap.Takes first middle) (taken' : middle.Takes second next) :
    heap.Takes (first + second) next := by
  intro lower upper room enough
  have rest := taken' _ _ (taken _ _ room (by omega)) (by omega)
  rwa [Nat.add_assoc] at rest

/-- The heap has its invariant and room. -/
def Roomy (region : KernelRegion) (lower upper : Nat) (kernel : Kernel) : Prop :=
  ∃ live, KernelInvariant region live kernel ∧ kernel.heap.Room lower upper

/-- The later blocks of the room are free once the lowest ones are taken. -/
theorem Heap.Room.freeAfter {heap : Heap} {lower upper taken block : Nat}
    (room : heap.Room lower upper) (above : lower + taken ≤ block) (below : block < upper) :
    heap.freeAfter taken block = true := by
  refine Bool.and_eq_true_iff.mpr ⟨room.free block (by omega) below, decide_eq_true ?_⟩
  have lowest : Finset.Ico lower (lower + taken) ⊆
      (Finset.range block).filter fun other => heap.isFree other = true := by
    intro other member
    obtain ⟨after, before⟩ := Finset.mem_Ico.mp member
    exact Finset.mem_filter.mpr
      ⟨Finset.mem_range.mpr (by omega), room.free other after (by omega)⟩
  have counted := Finset.card_le_card lowest
  rwa [Nat.card_Ico, Nat.add_sub_cancel_left] at counted

/-- A request is granted after a few blocks where there is room up to the end of the heap. -/
theorem Heap.Room.grantsAfter {heap : Heap} {lower taken size : Nat}
    (room : heap.Room lower heap.table.total)
    (enough : lower + taken + blocksFor size < heap.table.total) : heap.GrantsAfter taken size := by
  rcases Nat.eq_zero_or_pos size with rfl | positive
  · exact .inr ⟨rfl, heap.table.total - 1, by omega, room.freeAfter (by omega) (by omega)⟩
  · exact .inl ⟨positive, room.after (by omega)⟩

/-- The blocks of the room up to `upper`. -/
def RoomSupply (region : KernelRegion) (upper : Nat) (live : List Allocation) (kernel : Kernel)
    (left : Nat) : Prop :=
  ∃ lower, lower + left ≤ upper ∧ KernelInvariant region live kernel ∧
    kernel.heap.Room lower upper

theorem roomSupply (region : KernelRegion) (upper : Nat) :
    Supply region (RoomSupply region upper) where
  invariant := fun ⟨_, _, inv, _⟩ => inv
  same := fun ⟨lower, enough, _, room⟩ heap inv => ⟨lower, enough, inv, by rw [heap]; exact room⟩
  block := by
    rintro live kernel left size ⟨lower, enough, inv, room⟩ oneBlock contents
    have bounds : 1 ≤ size ∧ size ≤ 4096 := by
      unfold blocksFor peachosHeapBlockSize at oneBlock
      omega
    obtain ⟨ptr, next, run, placed, rest⟩ :=
      kmalloc_room inv room bounds.1 (by omega) (show lower + blocksFor size ≤ upper by omega)
        contents
    exact ⟨ptr, next, run, placed, lower + blocksFor size, by omega, placed.invariant, rest⟩

section Runs

variable {region : KernelRegion} {live : List Allocation} {kernel next : Kernel}
  {lower upper : Nat}

/-- A request takes its blocks. -/
theorem kmalloc_takes (inv : KernelInvariant region live kernel) {size ptr : Nat}
    (small : size ≤ 4294963200) {contents : Obj}
    (run : (kmalloc size contents).run kernel = .ok (ptr, next)) :
    kernel.heap.Takes (blocksFor size) next.heap := by
  intro lower upper room enough
  rcases kmalloc_completed inv small run with ⟨_, rfl⟩ | ⟨rfl, placed⟩ | ⟨positive, placed⟩
  · exact ⟨room.inside, fun block after => room.free block (by omega)⟩
  · have rest := room.of_fewer inv.heap placed.invariant.heap (List.Subset.refl _)
    exact ⟨rest.inside, fun block after => rest.free block (by omega)⟩
  · obtain ⟨_, _, run', _, rest⟩ := kmalloc_room inv room positive small enough contents
    rw [run] at run'
    obtain ⟨_, rfl⟩ := Prod.mk.inj (Except.ok.inj run')
    exact rest

/-- Freeing keeps the room. -/
theorem kfree_roomy (ptr : Nat) :
    Exec.Ensures (Roomy region lower upper) (kfree ptr) fun _ => True := by
  intro kernel done final roomy run
  obtain ⟨live, inv, room⟩ := roomy
  obtain ⟨heap, run', inv'⟩ := kfree_spec inv (kfree_eq_ok run)
  rw [run] at run'
  obtain ⟨_, rfl⟩ := Prod.mk.inj (Except.ok.inj run')
  exact ⟨⟨_, inv', room.of_fewer inv.heap inv'.heap (List.filter_subset_self _)⟩, trivial⟩

theorem load_roomy {α : Type} (view : Obj → Option α) (ptr : Nat) :
    Exec.Ensures (Roomy region lower upper) (load view ptr) fun _ => True := by
  intro kernel value final roomy run
  obtain ⟨_, rfl⟩ := load_eq_ok.mp run
  exact ⟨roomy, trivial⟩

end Runs

end Peachos
