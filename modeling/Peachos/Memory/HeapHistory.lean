import Peachos.Memory.HeapLive

/-! # The heap has no history

After a `HeapRun`, whose requests were granted and which frees what is allocated, the table depends on
the blocks that are allocated and on nothing else (`heapRun_canonical`). So the heap is as good as new
once all that was allocated is freed, in whatever order (`freeAll_restores`).
-/

namespace Peachos

open CInt FirstFit

/-- Free the allocations one after the other. -/
def freeAll : List Allocation → HeapM Unit
  | [] => pure ()
  | allocation :: rest => do
      heapFree allocation.ptr
      freeAll rest

section Runs

variable {region : HeapRegion} {live live' : List Allocation} {heap heap' : Heap}

/-- The entry of a block, from the extents that are allocated. -/
theorem HeapInvariant.entry_eq (inv : HeapInvariant region live heap)
    (inv' : HeapInvariant region live' heap')
    (same : ∀ extent, extent ∈ live.map region.extent ↔ extent ∈ live'.map region.extent)
    {position : Nat} (inside : position < heap.table.total) :
    heap'.table.entries[position]? = heap.table.entries[position]? := by
  have inside' : position < heap'.table.total := by rwa [inv.sameTotal inv']
  by_cases covered : ∃ allocation ∈ live, (region.extent allocation).Covers position
  · obtain ⟨allocation, member, covers⟩ := covered
    obtain ⟨other, member', extent⟩ :=
      List.mem_map.mp ((same _).mp (List.mem_map_of_mem member))
    rw [inv.encodes.taken allocation member position covers,
      inv'.encodes.taken other member' position (extent ▸ covers), extent]
  · have free := fun allocation member covers => covered ⟨allocation, member, covers⟩
    rw [inv.encodes.free position inside free, inv'.encodes.free position inside' ?_]
    intro other member covers
    obtain ⟨allocation, member', extent⟩ :=
      List.mem_map.mp ((same _).mpr (List.mem_map_of_mem member))
    exact free allocation member' (extent ▸ covers)

/-- Two live allocations with one pointer are one. -/
theorem HeapInvariant.eq_of_ptr_eq (inv : HeapInvariant region live heap)
    {first second : Allocation} (member : first ∈ live) (member' : second ∈ live)
    (same : first.ptr = second.ptr) : first = second := by
  have symmetric : Std.Symm fun first second : Allocation =>
      first.ptr + peachosHeapBlockSize * blocksFor first.size ≤ second.ptr ∨
        second.ptr + peachosHeapBlockSize * blocksFor second.size ≤ first.ptr := ⟨fun _ _ => Or.symm⟩
  by_contra different
  have apart := inv.disjoint.forall member member' different
  have positive := blocksFor_positive (inv.sized first member)
  have positive' := blocksFor_positive (inv.sized second member')
  unfold peachosHeapBlockSize at apart
  omega

/-- The heap is a function of the extents that are allocated. -/
theorem HeapInvariant.heap_eq (inv : HeapInvariant region live heap)
    (inv' : HeapInvariant region live' heap')
    (same : ∀ extent, extent ∈ live.map region.extent ↔ extent ∈ live'.map region.extent) :
    heap' = heap := by
  have entries : heap'.table.entries = heap.table.entries := by
    refine List.ext_getElem? fun position => ?_
    by_cases inside : position < heap.table.total
    · exact inv.entry_eq inv' same inside
    · have outside : heap'.table.entries.length ≤ position :=
        (inv.sameTotal inv').le.trans (not_lt.mp inside)
      rw [List.getElem?_eq_none outside, List.getElem?_eq_none (not_lt.mp inside)]
  obtain ⟨⟨entries₁⟩, saddr⟩ := heap
  obtain ⟨⟨entries₂⟩, saddr'⟩ := heap'
  obtain rfl : saddr' = saddr := inv'.saddr.trans inv.saddr.symm
  obtain rfl : entries₂ = entries₁ := entries
  rfl

/-- **No history.** Two heaps that satisfiable requests and frees of live pointers have led to are the
same if the same blocks are allocated in them. A free of any other pointer may tell them apart. -/
theorem heapRun_canonical (reached : HeapRun region live heap) (reached' : HeapRun region live' heap')
    (same : ∀ extent, extent ∈ live.map region.extent ↔ extent ∈ live'.map region.extent) :
    heap' = heap :=
  reached.invariant.heap_eq reached'.invariant same

/-- Freeing what is allocated leads to a heap in which nothing is. -/
theorem HeapRun.freeAll : ∀ {order live : List Allocation} {heap : Heap},
    HeapRun region live heap → order.Nodup → (∀ allocation, allocation ∈ order ↔ allocation ∈ live) →
    ∃ final, (freeAll order).run heap = .ok ((), final) ∧ HeapRun region [] final := by
  intro order
  induction order with
  | nil =>
      intro live heap reached _ listed
      obtain rfl : live = [] := List.eq_nil_iff_forall_not_mem.mpr fun allocation member =>
        List.not_mem_nil ((listed allocation).mpr member)
      exact ⟨heap, rfl, reached⟩
  | cons first rest ih =>
      intro live heap reached distinct listed
      have member := (listed first).mp List.mem_cons_self
      obtain ⟨next, run, _, _⟩ := heapFree_spec reached.invariant member
      obtain ⟨fresh, distinct'⟩ := List.nodup_cons.mp distinct
      obtain ⟨final, freed, empty⟩ := ih (.free reached member run) distinct' fun allocation => by
        rw [List.mem_filter, decide_eq_true_iff, ← listed, List.mem_cons]
        constructor
        · intro later
          refine ⟨.inr later, fun same => fresh ?_⟩
          have one := reached.invariant.eq_of_ptr_eq
            ((listed _).mp (List.mem_cons_of_mem _ later)) member same
          exact one ▸ later
        · rintro ⟨rfl | later, different⟩
          · exact absurd rfl different
          · exact later
      exact ⟨final, by rw [Peachos.freeAll, Exec.bind_of_ok run, freed], empty⟩

/-- **As good as new.** From every heap that satisfiable requests and frees of live pointers have led
to, freeing the live allocations completes in every order, and leaves the heap that `heap_create`
made. -/
theorem freeAll_restores {before created : Heap} {table : HeapTable}
    (create : heapCreate before region.start region.stop table = (0, created))
    (reached : HeapRun region live heap) {order : List Allocation} (distinct : order.Nodup)
    (listed : ∀ allocation, allocation ∈ order ↔ allocation ∈ live) :
    (freeAll order).run heap = .ok ((), created) := by
  obtain ⟨final, freed, empty⟩ := reached.freeAll distinct listed
  obtain rfl := (heapCreate_invariant region create).heap_eq empty.invariant fun _ => Iff.rfl
  exact freed

end Runs

/-- The three blocks, each allocated alone. -/
theorem threeBlocks_full :
    HeapRun threeBlocks [⟨0x01002000, 1⟩, ⟨0x01001000, 1⟩, ⟨0x01000000, 1⟩]
      ⟨⟨[0x41, 0x41, 0x41]⟩, 0x01000000⟩ := by
  have created : HeapRun threeBlocks [] ⟨⟨[0x00, 0x00, 0x00]⟩, 0x01000000⟩ :=
    @HeapRun.create _ ⟨⟨[]⟩, 0⟩ _ ⟨[0x00, 0x00, 0x00]⟩ rfl
  have first : HeapRun threeBlocks [⟨0x01000000, 1⟩] ⟨⟨[0x41, 0x00, 0x00]⟩, 0x01000000⟩ :=
    .malloc created (by decide) (by decide) (by decide) rfl
  have second : HeapRun threeBlocks [⟨0x01001000, 1⟩, ⟨0x01000000, 1⟩]
      ⟨⟨[0x41, 0x41, 0x00]⟩, 0x01000000⟩ :=
    .malloc first (by decide) (by decide) (by decide) rfl
  exact .malloc second (by decide) (by decide) (by decide) rfl

/-- From there the first two are freed. -/
theorem threeBlocks_freed :
    HeapRun threeBlocks [⟨0x01002000, 1⟩] ⟨⟨[0x00, 0x00, 0x41]⟩, 0x01000000⟩ := by
  have freed : HeapRun threeBlocks [⟨0x01002000, 1⟩, ⟨0x01001000, 1⟩]
      ⟨⟨[0x00, 0x41, 0x41]⟩, 0x01000000⟩ :=
    @HeapRun.free _ _ _ _ ⟨0x01000000, 1⟩ threeBlocks_full (by decide) rfl
  exact @HeapRun.free _ _ _ _ ⟨0x01001000, 1⟩ freed (by decide) rfl

/-- Over other bytes, two blocks and then one are allocated, and the two are freed. -/
theorem threeBlocks_paired :
    HeapRun threeBlocks [⟨0x01002000, 4096⟩] ⟨⟨[0x00, 0x00, 0x41]⟩, 0x01000000⟩ := by
  have created : HeapRun threeBlocks [] ⟨⟨[0x00, 0x00, 0x00]⟩, 0x01000000⟩ :=
    @HeapRun.create _ ⟨⟨[]⟩, 0⟩ _ ⟨[0xFF, 0x41, 0x07]⟩ rfl
  have first : HeapRun threeBlocks [⟨0x01000000, 5000⟩] ⟨⟨[0xC1, 0x01, 0x00]⟩, 0x01000000⟩ :=
    .malloc created (by decide) (by decide) (by decide) rfl
  have second : HeapRun threeBlocks [⟨0x01002000, 4096⟩, ⟨0x01000000, 5000⟩]
      ⟨⟨[0xC1, 0x01, 0x41]⟩, 0x01000000⟩ :=
    .malloc first (by decide) (by decide) (by decide) rfl
  exact .free second (List.mem_cons_of_mem _ List.mem_cons_self) rfl

/-- The two histories lead to one heap. -/
theorem heapRun_canonical_threeBlocks :
    ∃ heap heap', HeapRun threeBlocks [⟨0x01002000, 4096⟩] heap ∧
      HeapRun threeBlocks [⟨0x01002000, 1⟩] heap' ∧ heap' = heap :=
  ⟨_, _, threeBlocks_paired, threeBlocks_freed,
    heapRun_canonical threeBlocks_paired threeBlocks_freed fun _ => Iff.rfl⟩

/-- The three blocks freed, the middle one first. -/
theorem freeAll_restores_threeBlocks :
    (freeAll [⟨0x01001000, 1⟩, ⟨0x01002000, 1⟩, ⟨0x01000000, 1⟩]).run
      ⟨⟨[0x41, 0x41, 0x41]⟩, 0x01000000⟩ = .ok ((), ⟨⟨[0x00, 0x00, 0x00]⟩, 0x01000000⟩) := by
  have create : heapCreate ⟨⟨[]⟩, 0⟩ threeBlocks.start threeBlocks.stop ⟨[0x00, 0x00, 0x00]⟩ =
      (0, ⟨⟨[0x00, 0x00, 0x00]⟩, 0x01000000⟩) := rfl
  refine freeAll_restores create threeBlocks_full (by decide) fun allocation => ?_
  simp only [List.mem_cons, List.not_mem_nil, or_false]
  exact or_left_comm

end Peachos
