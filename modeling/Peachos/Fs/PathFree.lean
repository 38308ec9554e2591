import Peachos.Fs.PathRoundTrip
import Peachos.Kernel.Release

/-! # Freeing a parsed path

`pathparser_parse` frees the buffer of an empty component at once. The blocks that it leaves are
the root and two for each part, and `pathparser_free` frees each of them once, so that the heap is as
before the parse (`pathparserFree_balanced`).
-/

namespace Peachos

open Split

/-- The blocks of the parts in the order in which they are freed: a name before its part. -/
def freeOrder : List Nat → List Nat
  | part :: buffer :: rest => buffer :: part :: freeOrder rest
  | rest => rest

theorem freeOrder_perm : ∀ ptrs : List Nat, (freeOrder ptrs).Perm ptrs
  | [] => .refl _
  | [_] => .refl _
  | part :: buffer :: rest => (((freeOrder_perm rest).cons part).cons buffer).trans (.swap ..)

/-- The loop frees the blocks of the parts. -/
theorem pathparserFreeLoop_eq : ∀ {names : List (List UInt8)} {fuel first : Nat} {ptrs : List Nat}
    {kernel : Kernel}, names.length < fuel → PartList kernel first names ptrs → ptrs.Nodup →
    (pathparserFreeLoop fuel first).run kernel = (kfreeAll (freeOrder ptrs)).run kernel := by
  intro names
  induction names with
  | nil =>
      rintro fuel first ptrs kernel enough ⟨rfl, rfl⟩ _
      obtain ⟨fuel, rfl⟩ : ∃ less, fuel = less + 1 := ⟨fuel - 1, by omega⟩
      rw [pathparserFreeLoop, if_pos rfl]
      rfl
  | cons name names ih =>
      rintro fuel first ptrs kernel enough
        ⟨notNull, _, buffer, after, rest, rfl, part, contents, parts⟩ different
      rw [List.length_cons] at enough
      obtain ⟨fuel, rfl⟩ : ∃ less, fuel = less + 1 := ⟨fuel - 1, by omega⟩
      have loaded : (load Obj.pathPart? first).run kernel = .ok (_, kernel) :=
        load_of_obj part rfl
      rw [List.nodup_cons, List.nodup_cons] at different
      obtain ⟨firstApart, bufferApart, different⟩ := different
      rw [pathparserFreeLoop, if_neg notNull, Exec.bind_of_ok loaded, freeOrder, kfreeAll]
      refine Exec.bind_congr fun _ middle freed => ?_
      rw [kfreeAll]
      refine Exec.bind_congr fun _ last freed' => ?_
      refine ih (by omega) (parts.of_kept fun ptr member => ?_) different
      have notFirst : ptr ≠ first := fun same =>
        firstApart (List.mem_cons_of_mem _ (same ▸ member))
      have notBuffer : ptr ≠ buffer := fun same => bufferApart (same ▸ member)
      rw [kfree_kept freed' notFirst, kfree_kept freed notBuffer]

/-- A path that is short enough has few components. -/
theorem length_components_of_prefix {drive : Nat} {rest : List UInt8}
    (short : (drivePrefix drive rest).length ≤ peachosMaxPath) :
    (components 47 rest).length ≤ peachosMaxPath := by
  have few := length_components_le rest
  unfold drivePrefix at short
  simp only [List.length_cons] at short
  omega

section Free

variable {region : KernelRegion} {live live' : List Allocation} {kernel next : Kernel}
  {path : List UInt8} {root : Nat}

/-- `pathparser_free` frees the blocks of the parts, then the root. -/
theorem pathparserFree_eq {drive : Nat} {names : List (List UInt8)} {ptrs : List Nat}
    (parsed : ParsedPath kernel root drive names ptrs) (few : names.length ≤ peachosMaxPath)
    (different : ptrs.Nodup) :
    (pathparserFree root).run kernel = (kfreeAll (freeOrder ptrs ++ [root])).run kernel := by
  obtain ⟨first, rootHere, parts⟩ := parsed.parts
  have loaded : (load Obj.pathRoot? root).run kernel = .ok (_, kernel) := load_of_obj rootHere rfl
  rw [pathparserFree, Exec.bind_of_ok loaded, kfreeAll_append,
    Exec.bind_run_eq (pathparserFreeLoop_eq (Nat.lt_succ_of_le few) parts different)]
  exact Exec.bind_congr fun _ last _ => (kfreeAll_singleton root last).symm

/-- Freeing a parsed path frees `blocks`, each of them once. They are those that the parse from
`kernel` to `parsed` left allocated, and all that is live again is what was live in `kernel`. -/
structure PathFreed (region : KernelRegion) (live : List Allocation) (kernel parsed : Kernel)
    (root : Nat) (blocks : List Nat) : Prop where
  allocated : ∃ live', Extended region live live' kernel parsed fun ptr => ptr ∈ blocks
  once : blocks.Nodup
  frees : (pathparserFree root).run parsed = (kfreeAll blocks).run parsed
  restored : ∃ final, (pathparserFree root).run parsed = .ok ((), final) ∧
    final.heap = kernel.heap ∧ KernelInvariant region live final

/-- **Parsing and freeing a path.** The parse completes while the heap has two blocks for each
component and two more. Whenever it completes, it has refused the path and changed nothing, or
freeing its root frees exactly the blocks that it left. -/
theorem pathparserFree_balanced (inv : KernelInvariant region live kernel) (path : List UInt8) :
    (2 * (components 47 (path.drop 3)).length + 2 ≤ kernel.heap.freeBlocks →
      ∃ root parsed, (pathparserParse path).run kernel = .ok (root, parsed)) ∧
    ∀ root parsed, (pathparserParse path).run kernel = .ok (root, parsed) →
      (root = 0 ∧ parsed = kernel) ∨
        (root ≠ 0 ∧ ∃ blocks, PathFreed region live kernel parsed root blocks) := by
  constructor
  · intro room
    by_cases valid : pathparserPathValidFormat path = true
    · obtain ⟨drive, digit, rest, rfl⟩ := pathparserPathValidFormat_iff.mp valid
      exact pathparserParse_completes inv digit room
    · exact ⟨0, kernel, pathparserParse_refused (.inr valid)⟩
  · intro root parsed run
    rcases pathparserParse_made inv run with ⟨null, same, _⟩ |
      ⟨notNull, short, drive, digit, rest, rfl, live', ptrs, extended, parts, different⟩
    · exact .inl ⟨null, same⟩
    right
    have names := length_components_of_prefix short
    have listed : ∀ ptr, ptr = root ∨ ptr ∈ ptrs ↔ ptr ∈ freeOrder ptrs ++ [root] := by
      intro ptr
      rw [List.mem_append, List.mem_singleton, (freeOrder_perm ptrs).mem_iff, or_comm]
    have once : (freeOrder ptrs ++ [root]).Nodup :=
      ((List.perm_append_singleton root _).trans ((freeOrder_perm ptrs).cons root)).nodup_iff.mpr
        different
    have blocks := extended.congr listed
    have frees := pathparserFree_eq parts names (List.nodup_cons.mp different).2
    obtain ⟨final, freed, heap, restored⟩ := kfreeAll_restores inv blocks once
    exact ⟨notNull, _, ⟨live', blocks⟩, once, frees, final, frees.trans freed, heap, restored⟩

end Free

/-- The path `0:/a//b`, of which the parser drops what follows the empty component. -/
theorem pathparserFree_balanced_boot : ∃ root parsed blocks,
    (pathparserParse [48, 58, 47, 97, 47, 47, 98]).run bootKernel = .ok (root, parsed) ∧
      root ≠ 0 ∧ PathFreed kernelHeapRegion [] bootKernel parsed root blocks := by
  have inv := freshKernel_invariant kernelHeapRegion
  obtain ⟨completes, balanced⟩ := pathparserFree_balanced inv [48, 58, 47, 97, 47, 47, 98]
  obtain ⟨root, parsed, run⟩ := completes (by
    rw [freshKernel_freeBlocks]
    decide)
  rcases balanced root parsed run with ⟨rfl, _⟩ | ⟨notNull, blocks, freed⟩
  · rcases pathparserParse_completed inv run with ⟨_, _, refused⟩ | ⟨notNull, _⟩
    · exact absurd refused (by decide)
    · exact absurd rfl notNull
  · exact ⟨root, parsed, blocks, run, notNull, freed⟩

end Peachos
