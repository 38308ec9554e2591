import Peachos.Kernel.Frame

/-! # Freeing what was allocated

`kfreeAll` frees a list of blocks. Where a call allocated exactly these blocks, freeing each of them
once brings the heap back (`kfreeAll_restores`).
-/

namespace Peachos

/-- Free the blocks one after the other. -/
def kfreeAll : List Nat → K Unit
  | [] => pure ()
  | ptr :: ptrs => do
      kfree ptr
      kfreeAll ptrs

section Kept

variable {kernel next : Kernel}

/-- A completed `kfree` leaves the other objects as they are. -/
theorem kfree_kept {ptr other : Nat} (run : (kfree ptr).run kernel = .ok ((), next))
    (different : other ≠ ptr) : next.objs other = kernel.objs other := by
  have live := kfree_eq_ok run
  rw [kfree, Exec.bind_of_ok (Exec.run_read _ _), if_pos live] at run
  obtain ⟨_, middle, freed, cleared⟩ := Exec.bind_eq_ok.mp run
  obtain ⟨heap, _, rfl⟩ := Exec.zoom_eq_ok.mp freed
  cases cleared
  exact Kernel.setObj_objs_of_ne _ _ different

theorem kfreeAll_kept {ptrs : List Nat} : ∀ {kernel next : Kernel},
    (kfreeAll ptrs).run kernel = .ok ((), next) → ∀ other ∉ ptrs,
      next.objs other = kernel.objs other := by
  induction ptrs with
  | nil =>
      intro kernel next run other _
      cases run
      rfl
  | cons ptr ptrs ih =>
      intro kernel next run other outside
      obtain ⟨_, middle, freed, rest⟩ := Exec.bind_eq_ok.mp run
      rw [List.mem_cons, not_or] at outside
      rw [ih rest other outside.2, kfree_kept freed outside.1]

theorem kfreeAll_singleton (ptr : Nat) (kernel : Kernel) :
    (kfreeAll [ptr]).run kernel = (kfree ptr).run kernel := by
  cases freed : (kfree ptr).run kernel with
  | error reason => rw [kfreeAll, Exec.bind_of_error freed]
  | ok result =>
      rw [kfreeAll, Exec.bind_of_ok freed]
      rfl

theorem kfreeAll_append (first second : List Nat) : ∀ kernel : Kernel,
    (kfreeAll (first ++ second)).run kernel =
      (kfreeAll first >>= fun _ => kfreeAll second).run kernel := by
  induction first with
  | nil => exact fun kernel => (Exec.bind_of_ok (Exec.run_pure _ _)).symm
  | cons ptr first ih =>
      intro kernel
      rw [List.cons_append, kfreeAll, kfreeAll, Exec.bind_assoc]
      exact Exec.bind_congr fun _ middle _ => ih middle

end Kept

section Restore

variable {region : KernelRegion} {live live' live'' : List Allocation}
  {kernel made mapped final : Kernel} {owned : Nat → Prop} {blocks : List Nat}

/-- The live allocations determine the table. -/
theorem HeapInvariant.unique {region : HeapRegion} {heap next : Heap}
    (inv : HeapInvariant region live heap) (inv' : HeapInvariant region live' next)
    (same : ∀ allocation, allocation ∈ live' ↔ allocation ∈ live) : next = heap := by
  have total := inv.sameTotal inv'
  have entries : next.table.entries = heap.table.entries := by
    apply List.ext_getElem?
    intro position
    by_cases inside : position < heap.table.total
    · by_cases covered : ∃ allocation ∈ live, (region.extent allocation).Covers position
      · obtain ⟨allocation, member, covers⟩ := covered
        rw [inv.encodes.taken allocation member position covers,
          inv'.encodes.taken allocation ((same allocation).mpr member) position covers]
      · have free : ∀ allocation ∈ live, ¬ (region.extent allocation).Covers position :=
          fun allocation member covers => covered ⟨allocation, member, covers⟩
        rw [inv.encodes.free position inside free, inv'.encodes.free position (total ▸ inside)
          fun allocation member => free allocation ((same allocation).mp member)]
    · have outside : next.table.total ≤ position := total ▸ Nat.not_lt.mp inside
      rw [List.getElem?_eq_none (Nat.not_lt.mp inside), List.getElem?_eq_none outside]
  have saddr := inv'.saddr.trans inv.saddr.symm
  obtain ⟨⟨_⟩, _⟩ := heap
  obtain ⟨⟨_⟩, _⟩ := next
  cases entries
  cases saddr
  rfl

/-- Freeing what was allocated gives the heap back, if nothing else was allocated or freed. -/
theorem Extended.restored (extended : Extended region live live' kernel made owned)
    (inv : KernelInvariant region live kernel)
    (released : Released region live' live'' mapped final owned) :
    final.heap = kernel.heap ∧ KernelInvariant region live final := by
  have remaining : ∀ allocation, allocation ∈ live'' ↔ allocation ∈ live := by
    intro allocation
    rw [released.remaining]
    constructor
    · rintro ⟨member, unowned⟩
      exact (extended.only allocation member).resolve_right unowned
    · exact fun member => ⟨extended.grown member, extended.fresh allocation member⟩
  have heap := inv.heap.unique released.invariant.heap remaining
  refine ⟨heap, ?_, ?_, ?_⟩
  · rw [heap]
    exact inv.heap
  · exact fun allocation member =>
      released.invariant.held allocation ((remaining allocation).mpr member)
  · intro ptr present
    refine (released.invariant.owned ptr present).imp_left ?_
    rintro ⟨allocation, member, same⟩
    exact ⟨allocation, (remaining allocation).mp member, same⟩

/-- Different live blocks can be freed one after the other. -/
theorem kfreeAll_released : ∀ {blocks : List Nat} {live' : List Allocation} {mapped : Kernel}
    {freed : Nat → Prop}, Released region live live' kernel mapped freed → blocks.Nodup →
    (∀ ptr ∈ blocks, (mapped.objs ptr).isSome) →
    ∃ live'' final, (kfreeAll blocks).run mapped = .ok ((), final) ∧
      Released region live live'' kernel final fun ptr => ptr ∈ blocks ∨ freed ptr := by
  intro blocks
  induction blocks with
  | nil =>
      intro live' mapped freed released _ _
      exact ⟨live', mapped, rfl, released.congr fun ptr => by simp only [List.not_mem_nil, false_or]⟩
  | cons block blocks ih =>
      intro live' mapped freed released different present
      rw [List.nodup_cons] at different
      obtain ⟨live₁, middle, run, released₁⟩ := released.free (present block List.mem_cons_self)
      obtain ⟨live'', final, rest, released'⟩ := ih released₁ different.2 fun ptr member => by
        rw [kfree_kept run fun same => different.1 (same ▸ member)]
        exact present ptr (List.mem_cons_of_mem _ member)
      refine ⟨live'', final, ?_, released'.congr fun ptr => ?_⟩
      · rw [kfreeAll, Exec.bind_of_ok run, rest]
      · rw [List.mem_cons, or_assoc, or_left_comm]

/-- **Freeing all of it.** -/
theorem kfreeAll_restores (inv : KernelInvariant region live kernel)
    (extended : Extended region live live' kernel made fun ptr => ptr ∈ blocks)
    (different : blocks.Nodup) :
    ∃ final, (kfreeAll blocks).run made = .ok ((), final) ∧ final.heap = kernel.heap ∧
      KernelInvariant region live final := by
  obtain ⟨live'', final, run, released⟩ := kfreeAll_released (.refl extended.invariant) different
    fun ptr member => by
      obtain ⟨allocation, held, rfl⟩ := extended.held ptr member
      exact extended.invariant.held allocation held
  obtain ⟨heap, restored⟩ := extended.restored inv
    (released.congr fun ptr => show _ ↔ ptr ∈ blocks from or_iff_left id)
  exact ⟨final, run, heap, restored⟩

end Restore

end Peachos
