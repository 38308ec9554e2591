import Peachos.Foundation.FirstFit
import Peachos.Memory.Heap

/-! # What each heap operation does to the table

One specification for each loop of `heap.c`: the search finds the lowest run or the
trailing one (`heapGetStartBlock_found`, `heapGetStartBlock_missing`), marking writes
the chain of one extent (`heapMarkBlocksTaken_inside`), and freeing clears a chain
(`heapMarkBlocksFree_chain`).
-/

namespace Peachos

open CInt FirstFit

namespace Heap

/-- The entry at a position is of the free type. -/
def isFree (heap : Heap) (position : Nat) : Bool :=
  match heap.table.entries[position]? with
  | some entry => heapGetEntryType entry == heapBlockTableEntryFree
  | none => false

theorem isFree_of_entry {heap : Heap} {position : Nat} {entry : UInt8}
    (here : heap.table.entries[position]? = some entry) :
    heap.isFree position = (heapGetEntryType entry == heapBlockTableEntryFree) := by
  simp only [isFree, here]

theorem isFree_lt {heap : Heap} {position : Nat} (free : heap.isFree position = true) :
    position < heap.table.total := by
  unfold isFree at free
  split at free
  next present => exact (List.getElem?_eq_some_iff.mp present).1
  next => exact absurd free Bool.false_ne_true

end Heap

/-- The table byte of a block of an allocation. -/
def blockEntry (extent : Extent) (position : Nat) : UInt8 :=
  let entry := if position = extent.start then heapBlockTableEntryTaken ||| heapBlockIsFirst
    else heapBlockTableEntryTaken
  if position + 1 < extent.start + extent.count then entry ||| heapBlockHasNext else entry

theorem blockEntry_taken (extent : Extent) (position : Nat) :
    heapGetEntryType (blockEntry extent position) ≠ heapBlockTableEntryFree := by
  unfold blockEntry
  dsimp only
  split <;> split <;> decide

theorem blockEntry_hasNext_eq_zero (extent : Extent) (position : Nat) :
    blockEntry extent position &&& heapBlockHasNext = 0 ↔
      ¬ position + 1 < extent.start + extent.count := by
  unfold blockEntry
  dsimp only
  split <;> split <;> simp_all <;> decide

theorem readEntry_at {heap : Heap} {position : Nat} {entry : UInt8}
    (here : heap.table.entries[position]? = some entry) :
    (readEntry position).run heap = .ok (entry, heap) := by
  apply Exec.demand_of_some
  simpa only [Int.natCast_nonneg, ↓reduceIte, Int.toNat_natCast] using here

theorem writeEntry_at {heap : Heap} {position : Nat} (inside : position < heap.table.total)
    (entry : UInt8) :
    (writeEntry position entry).run heap =
      .ok ((), { heap with table := ⟨heap.table.entries.set position entry⟩ }) := by
  simp only [writeEntry, Exec.run_of, Int.natCast_nonneg, Int.toNat_natCast, inside, and_self, ↓reduceIte]

theorem writeEntry_outside {heap : Heap} {position : Nat} (outside : heap.table.total ≤ position)
    (entry : UInt8) :
    (writeEntry position entry).run heap = .error (.tableIndex position) := by
  have beyond : ¬ position < heap.table.total := by omega
  simp only [writeEntry, Exec.run_of, Int.natCast_nonneg, Int.toNat_natCast, beyond, and_false, ↓reduceIte]

/-- What the search holds at position `i`: the length of the free run that ends there, and
where that run starts. -/
structure SearchAt (heap : Heap) (i : Nat) (bc bs : Int) : Prop where
  counted : bc = trailing heap.isFree i
  started : bs = if trailing heap.isFree i = 0 then -1 else (i : Int) - trailing heap.isFree i

theorem SearchAt.zero (heap : Heap) : SearchAt heap 0 0 (-1) := ⟨rfl, rfl⟩

/-- One turn of the search stops at a free entry that completes the run, and otherwise goes on
with what it holds at the next position. -/
theorem heapGetStartBlockLoop_step {heap : Heap} (small : heap.table.total < 2147483648)
    {i : Nat} (within : i < heap.table.total) {bc bs : Int} (held : SearchAt heap i bc bs)
    (count remaining : Nat) :
    ∃ nextCount nextStart, SearchAt heap (i + 1) nextCount nextStart ∧
      (heapGetStartBlockLoop count (remaining + 1) i bc bs).run heap =
        if 1 ≤ trailing heap.isFree (i + 1) ∧ trailing heap.isFree (i + 1) = count then
          .ok (nextStart, heap)
        else (heapGetStartBlockLoop count remaining (i + 1) nextCount nextStart).run heap := by
  obtain ⟨counted, started⟩ := held
  have inside : i < heap.table.entries.length := within
  have entry := List.getElem?_eq_getElem inside
  have bound := trailing_le heap.isFree i
  rw [heapGetStartBlockLoop, Exec.bind_of_ok (readEntry_at entry)]
  by_cases taken : heapGetEntryType heap.table.entries[i] ≠ heapBlockTableEntryFree
  · have reset : trailing heap.isFree (i + 1) = 0 := by
      apply trailing_succ_of_taken
      rw [Heap.isFree_of_entry entry]
      exact beq_eq_false_iff_ne.mpr taken
    refine ⟨0, -1, ⟨?_, ?_⟩, ?_⟩
    · rw [reset, Nat.cast_zero]
    · rw [if_pos reset]
    · rw [if_pos taken, if_neg (by omega)]
  · have grown : trailing heap.isFree (i + 1) = trailing heap.isFree i + 1 := by
      apply trailing_succ_of_free
      rw [Heap.isFree_of_entry entry]
      exact beq_iff_eq.mpr (not_not.mp taken)
    have nextCount : i32 (bc + 1) = trailing heap.isFree (i + 1) := by
      rw [i32_of_range (by omega) (by omega)]
      omega
    have nextStart : (if bs = -1 then i32 i else bs) =
        (i : Int) + 1 - trailing heap.isFree (i + 1) := by
      rw [i32_natCast (by omega), started]
      split_ifs <;> omega
    refine ⟨_, (i : Int) + 1 - trailing heap.isFree (i + 1), ⟨rfl, ?_⟩, ?_⟩
    · rw [if_neg (by omega), Nat.cast_add, Nat.cast_one]
    · rw [if_neg taken]
      dsimp only
      rw [nextCount, nextStart, u32_natCast (by omega)]
      by_cases enough : trailing heap.isFree (i + 1) = count
      · rw [if_pos enough, if_pos ⟨by omega, enough⟩, Exec.run_pure]
      · rw [if_neg enough, if_neg (fun both => enough both.2)]

/-- The search stops at the first position where the run that ends there is long enough, and
otherwise keeps the start of the run at the table's end. -/
theorem heapGetStartBlockLoop_spec (heap : Heap) (small : heap.table.total < 2147483648)
    {count : Nat} (positive : 1 ≤ count) :
    ∀ (remaining i : Nat) (bc bs : Int), i + remaining = heap.table.total →
      SearchAt heap i bc bs →
      (∀ stop ≤ i, trailing heap.isFree stop < count) →
      ∃ result, (heapGetStartBlockLoop count remaining i bc bs).run heap = .ok (result, heap) ∧
        ((∃ start : Nat, result = start ∧ start + count ≤ heap.table.total ∧
            FreeRun heap.isFree start count ∧
            ∀ stop < start + count, trailing heap.isFree stop < count) ∨
          ((∀ stop ≤ heap.table.total, trailing heap.isFree stop < count) ∧
            result = if trailing heap.isFree heap.table.total = 0 then -1
              else (heap.table.total : Int) - trailing heap.isFree heap.table.total)) := by
  intro remaining
  induction remaining with
  | zero =>
      intro i bc bs reached held short
      obtain rfl : i = heap.table.total := by omega
      exact ⟨bs, rfl, Or.inr ⟨short, held.started⟩⟩
  | succ remaining ih =>
      intro i bc bs reached held short
      have bound := trailing_le heap.isFree (i + 1)
      obtain ⟨nextCount, nextStart, next, run⟩ :=
        heapGetStartBlockLoop_step small (by omega) held count remaining
      rw [run]
      by_cases enough : trailing heap.isFree (i + 1) = count
      · have start := next.started
        rw [if_neg (by omega)] at start
        rw [if_pos ⟨by omega, enough⟩]
        refine ⟨_, rfl, Or.inl ⟨i + 1 - count, by omega, by omega, ?_, ?_⟩⟩
        · exact (freeRun_iff_le_trailing (by omega)).mpr enough.ge
        · intro stop before
          exact short stop (by omega)
      · rw [if_neg (fun both => enough both.2)]
        refine ih (i + 1) _ _ (by omega) next ?_
        intro stop within
        rcases Nat.lt_or_ge stop (i + 1) with earlier | last
        · exact short stop (by omega)
        · have before := short i le_rfl
          have grown := trailing_succ_le heap.isFree i
          rw [show stop = i + 1 by omega]
          omega

/-- A search for a run that exists returns the lowest one. -/
theorem heapGetStartBlock_found {heap : Heap} (small : heap.table.total < 2147483648)
    {count : Nat} (positive : 1 ≤ count)
    (fits : HasFreeRun heap.isFree heap.table.total count) :
    ∃ start : Nat, (heapGetStartBlock count).run heap = .ok ((start : Int), heap) ∧
      start + count ≤ heap.table.total ∧ FreeRun heap.isFree start count ∧
      ∀ other, other + count ≤ heap.table.total → FreeRun heap.isFree other count →
        start ≤ other := by
  obtain ⟨result, run, outcome⟩ := heapGetStartBlockLoop_spec heap small positive
    heap.table.total 0 0 (-1) (Nat.zero_add _) (SearchAt.zero heap)
    (by intro stop first; rw [Nat.le_zero.mp first]; exact positive)
  rcases outcome with ⟨start, rfl, inside, free, first⟩ | ⟨short, _⟩
  · refine ⟨start, ?_, inside, free, ?_⟩
    · rw [heapGetStartBlock, Exec.bind_of_ok (Exec.run_read _ _), Exec.bind_of_ok run,
        if_neg (by omega)]
      rfl
    · intro other otherInside otherFree
      by_contra earlier
      have enough := (freeRun_iff_le_trailing rfl).mp otherFree
      have := first (other + count) (by omega)
      omega
  · obtain ⟨stop, inside, enough⟩ := hasFreeRun_iff.mp fits
    have := short stop inside
    omega

/-- A search for a run that does not exist returns the start of the free run at the end
of the table, and the error code only when there is none. -/
theorem heapGetStartBlock_missing {heap : Heap} (small : heap.table.total < 2147483648)
    {count : Nat} (positive : 1 ≤ count)
    (full : ¬ HasFreeRun heap.isFree heap.table.total count) :
    (heapGetStartBlock count).run heap =
      .ok ((if trailing heap.isFree heap.table.total = 0 then -enomem
        else (heap.table.total : Int) - trailing heap.isFree heap.table.total), heap) := by
  obtain ⟨result, run, outcome⟩ := heapGetStartBlockLoop_spec heap small positive
    heap.table.total 0 0 (-1) (Nat.zero_add _) (SearchAt.zero heap)
    (by intro stop first; rw [Nat.le_zero.mp first]; exact positive)
  rcases outcome with ⟨start, _, inside, free, _⟩ | ⟨_, rfl⟩
  · exact absurd ⟨start, inside, free⟩ full
  · have bound := trailing_le heap.isFree heap.table.total
    rw [heapGetStartBlock, Exec.bind_of_ok (Exec.run_read _ _), Exec.bind_of_ok run]
    by_cases none : trailing heap.isFree heap.table.total = 0
    · simp only [none, ↓reduceIte, Exec.run_pure]
    · simp only [none, ↓reduceIte]
      rw [if_neg (by omega), Exec.run_pure]

/-- Two heaps over the same region with tables of the same size. -/
structure Heap.SameFrame (heap next : Heap) : Prop where
  saddr : next.saddr = heap.saddr
  total : next.table.total = heap.table.total

theorem Heap.SameFrame.refl (heap : Heap) : heap.SameFrame heap := ⟨rfl, rfl⟩

theorem Heap.SameFrame.trans {first second third : Heap} (before : first.SameFrame second)
    (after : second.SameFrame third) : first.SameFrame third :=
  ⟨after.saddr.trans before.saddr, after.total.trans before.total⟩

/-- The table after one write. -/
theorem writeEntry_spec {heap : Heap} {position : Nat} (inside : position < heap.table.total)
    (entry : UInt8) :
    ∃ next, (writeEntry position entry).run heap = .ok ((), next) ∧ heap.SameFrame next ∧
      next.table.entries[position]? = some entry ∧
      ∀ other, other ≠ position → next.table.entries[other]? = heap.table.entries[other]? := by
  refine ⟨_, writeEntry_at inside entry, ⟨rfl, ?_⟩, ?_, ?_⟩
  · simp only [HeapTable.total, List.length_set]
  · exact List.getElem?_set_self inside
  · intro other different
    exact List.getElem?_set_ne (Ne.symm different)

/-- The entry that the marking loop prepares for the next block. -/
theorem blockEntry_succ (extent : Extent) {position : Nat} (after : extent.start ≤ position)
    (more : position + 1 < extent.start + extent.count) :
    (if (position : Int) ≠ (extent.start + extent.count : Int) - 1 - 1
      then heapBlockTableEntryTaken ||| heapBlockHasNext else heapBlockTableEntryTaken) =
      blockEntry extent (position + 1) := by
  have notFirst : ¬ position + 1 = extent.start := by omega
  by_cases last : position + 1 + 1 < extent.start + extent.count
  · rw [if_pos (by omega)]
    simp only [blockEntry, notFirst, last, ↓reduceIte]
  · rw [if_neg (by omega)]
    simp only [blockEntry, notFirst, last, ↓reduceIte]

/-- Marking writes the chain of the extent from the given block on. -/
theorem heapMarkBlocksTakenLoop_spec (extent : Extent)
    (small : extent.start + extent.count < 2147483648) :
    ∀ (count i : Nat) (entry : UInt8) (heap : Heap), i + count = extent.start + extent.count →
      extent.start ≤ i → extent.start + extent.count ≤ heap.table.total →
      (1 ≤ count → entry = blockEntry extent i) →
      ∃ next, (heapMarkBlocksTakenLoop ((extent.start + extent.count : Int) - 1) count i
          entry).run heap = .ok ((), next) ∧ heap.SameFrame next ∧
        ∀ position, next.table.entries[position]? =
          if i ≤ position ∧ position < i + count then some (blockEntry extent position)
          else heap.table.entries[position]? := by
  intro count
  induction count with
  | zero =>
      intro i entry heap _ _ _ _
      refine ⟨heap, rfl, .refl heap, fun position => ?_⟩
      rw [if_neg (by omega)]
  | succ count ih =>
      intro i entry heap reached after inside started
      obtain ⟨middle, wrote, frame, here, elsewhere⟩ :=
        @writeEntry_spec heap i (by omega) entry
      rw [heapMarkBlocksTakenLoop, Exec.bind_of_ok wrote,
        i32_of_range (by omega) (by omega)]
      obtain ⟨next, run, frame', marked⟩ := ih (i + 1) _ middle (by omega) (by omega)
        (by rw [frame.total]; exact inside)
        (fun more => blockEntry_succ extent after (by omega))
      refine ⟨next, run, frame.trans frame', fun position => ?_⟩
      rw [marked position]
      by_cases current : position = i
      · subst current
        rw [if_neg (by omega), if_pos (by omega), here, started (by omega)]
      · rw [elsewhere position current]
        by_cases later : i + 1 ≤ position ∧ position < i + 1 + count
        · rw [if_pos later, if_pos (by omega)]
        · rw [if_neg later, if_neg (by omega)]

/-- Marking past the end of the table writes outside it. -/
theorem heapMarkBlocksTakenLoop_overrun (endBlock : Int) :
    ∀ (count i : Nat) (entry : UInt8) (heap : Heap), i ≤ heap.table.total →
      heap.table.total < i + count →
      (heapMarkBlocksTakenLoop endBlock count i entry).run heap =
        .error (.tableIndex heap.table.total) := by
  intro count
  induction count with
  | zero => intro i entry heap _ _; omega
  | succ count ih =>
      intro i entry heap started beyond
      by_cases inside : i < heap.table.total
      · obtain ⟨middle, wrote, frame, _, _⟩ := writeEntry_spec inside entry
        rw [heapMarkBlocksTakenLoop, Exec.bind_of_ok wrote, ← frame.total]
        exact ih (i + 1) _ middle (by rw [frame.total]; omega) (by rw [frame.total]; omega)
      · obtain rfl : i = heap.table.total := by omega
        rw [heapMarkBlocksTakenLoop, Exec.bind_of_error (writeEntry_outside le_rfl entry)]

/-- **Marking an extent inside the table.** Its blocks get their chain and no other entry
changes. -/
theorem heapMarkBlocksTaken_inside (extent : Extent) {heap : Heap}
    (small : heap.table.total < 2147483648) (nonempty : 1 ≤ extent.count)
    (inside : extent.start + extent.count ≤ heap.table.total) :
    ∃ next, (heapMarkBlocksTaken extent.start extent.count).run heap = .ok ((), next) ∧
      heap.SameFrame next ∧ ∀ position, next.table.entries[position]? =
        if extent.Covers position then some (blockEntry extent position)
        else heap.table.entries[position]? := by
  have endBlock : i32 (i32 ((extent.start : Int) + extent.count) - 1) =
      (extent.start + extent.count : Int) - 1 := by
    have sum : i32 ((extent.start : Int) + extent.count) = extent.start + extent.count :=
      i32_of_range (by omega) (by omega)
    rw [sum, i32_of_range (by omega) (by omega)]
  have length : ((extent.start + extent.count : Int) - 1 - extent.start + 1).toNat =
      extent.count := by omega
  have first : (if (extent.count : Int) > 1
      then heapBlockTableEntryTaken ||| heapBlockIsFirst ||| heapBlockHasNext
      else heapBlockTableEntryTaken ||| heapBlockIsFirst) = blockEntry extent extent.start := by
    by_cases several : (extent.count : Int) > 1
    · rw [if_pos several]
      simp only [blockEntry, ↓reduceIte, show extent.start + 1 < extent.start + extent.count by
        omega]
    · rw [if_neg several]
      simp only [blockEntry, ↓reduceIte, show ¬ extent.start + 1 < extent.start + extent.count by
        omega]
  rw [heapMarkBlocksTaken, endBlock, length, first]
  exact heapMarkBlocksTakenLoop_spec extent (by omega) extent.count extent.start _ heap rfl
    le_rfl inside (fun _ => rfl)

/-- Freeing clears the chain of the extent from the given block on. -/
theorem heapMarkBlocksFreeLoop_spec (extent : Extent) :
    ∀ (count i : Nat) (heap : Heap), i + count = heap.table.total → extent.Covers i →
      extent.start + extent.count ≤ heap.table.total →
      (∀ position, i ≤ position → extent.Covers position →
        heap.table.entries[position]? = some (blockEntry extent position)) →
      ∃ next, (heapMarkBlocksFreeLoop count i).run heap = .ok ((), next) ∧
        heap.SameFrame next ∧ ∀ position, next.table.entries[position]? =
          if i ≤ position ∧ position < extent.start + extent.count
          then some heapBlockTableEntryFree else heap.table.entries[position]? := by
  intro count
  induction count with
  | zero =>
      intro i heap reached covered inside _
      unfold Extent.Covers at covered
      omega
  | succ count ih =>
      intro i heap reached covered inside chain
      obtain ⟨after, before⟩ := covered
      obtain ⟨middle, wrote, frame, here, elsewhere⟩ :=
        @writeEntry_spec heap i (by omega) heapBlockTableEntryFree
      rw [heapMarkBlocksFreeLoop, Exec.bind_of_ok (readEntry_at (chain i le_rfl ⟨after, before⟩)),
        Exec.bind_of_ok wrote]
      by_cases more : i + 1 < extent.start + extent.count
      · rw [if_neg (by rw [blockEntry_hasNext_eq_zero]; exact not_not.mpr more)]
        obtain ⟨next, run, frame', cleared⟩ := ih (i + 1) middle (by rw [frame.total]; omega)
          ⟨by omega, more⟩ (by rw [frame.total]; exact inside)
          (fun position later covers => by
            rw [elsewhere position (by omega)]
            exact chain position (by omega) covers)
        refine ⟨next, run, frame.trans frame', fun position => ?_⟩
        rw [cleared position]
        by_cases current : position = i
        · subst current
          rw [if_neg (by omega), if_pos (by omega), here]
        · rw [elsewhere position current]
          by_cases later : i + 1 ≤ position ∧ position < extent.start + extent.count
          · rw [if_pos later, if_pos (by omega)]
          · rw [if_neg later, if_neg (by omega)]
      · rw [if_pos ((blockEntry_hasNext_eq_zero extent i).mpr more)]
        refine ⟨middle, rfl, frame, fun position => ?_⟩
        by_cases current : position = i
        · subst current
          rw [if_pos (by omega), here]
        · rw [if_neg (by omega), elsewhere position current]

/-- **Freeing an allocation.** Starting at its first block, freeing clears exactly the
blocks of the extent. -/
theorem heapMarkBlocksFree_chain (extent : Extent) {heap : Heap}
    (small : heap.table.total < 2147483648) (nonempty : 1 ≤ extent.count)
    (inside : extent.start + extent.count ≤ heap.table.total)
    (chain : ∀ position, extent.Covers position →
      heap.table.entries[position]? = some (blockEntry extent position)) :
    ∃ next, (heapMarkBlocksFree extent.start).run heap = .ok ((), next) ∧
      heap.SameFrame next ∧ ∀ position, next.table.entries[position]? =
        if extent.Covers position then some heapBlockTableEntryFree
        else heap.table.entries[position]? := by
  rw [heapMarkBlocksFree, Exec.bind_of_ok (Exec.run_read _ _), i32_natCast small]
  exact heapMarkBlocksFreeLoop_spec extent _ extent.start heap (by omega)
    ⟨le_rfl, by omega⟩ inside (fun position _ covers => chain position covers)

end Peachos
