import Mathlib.Data.List.Pairwise
import Mathlib.Tactic

/-! # Free runs and extents of a numbered store

The first-fit side: `FirstFit.trailing free stop` is the number of consecutive
free positions directly before `stop`, the quantity a linear search maintains, and
`FirstFit.freeRun_iff_le_trailing` reads a run off it.

The ownership side: an `Extent` is a nonempty block of positions and an
`Arrangement` is a collection of pairwise apart extents inside the store. Taking a
free run and giving an extent back keep an arrangement
(`Arrangement.take`, `Arrangement.release`).
-/

namespace FirstFit

/-- The `count` positions from `start` on are all free. -/
def FreeRun (free : Nat → Bool) (start count : Nat) : Prop :=
  ∀ position, start ≤ position → position < start + count → free position = true

/-- Some `count` consecutive positions below `total` are free. -/
def HasFreeRun (free : Nat → Bool) (total count : Nat) : Prop :=
  ∃ start, start + count ≤ total ∧ FreeRun free start count

/-- The number of consecutive free positions directly before `stop`. -/
def trailing (free : Nat → Bool) : (stop : Nat) → Nat
  | 0 => 0
  | stop + 1 => if free stop then trailing free stop + 1 else 0

variable {free : Nat → Bool}

@[simp] theorem trailing_zero : trailing free 0 = 0 := rfl

theorem trailing_succ_of_free {stop : Nat} (here : free stop = true) :
    trailing free (stop + 1) = trailing free stop + 1 := by
  simp only [trailing, here, ↓reduceIte]

theorem trailing_succ_of_taken {stop : Nat} (here : free stop = false) :
    trailing free (stop + 1) = 0 := by
  simp only [trailing, here, Bool.false_eq_true, ↓reduceIte]

theorem trailing_succ_le (free : Nat → Bool) (stop : Nat) :
    trailing free (stop + 1) ≤ trailing free stop + 1 := by
  cases here : free stop with
  | true => exact (trailing_succ_of_free here).le
  | false =>
      rw [trailing_succ_of_taken here]
      exact Nat.zero_le _

theorem trailing_le (free : Nat → Bool) (stop : Nat) : trailing free stop ≤ stop := by
  induction stop with
  | zero => exact le_rfl
  | succ stop ih =>
      unfold trailing
      split <;> omega

/-- The trailing positions are free. -/
theorem freeRun_trailing (free : Nat → Bool) (stop : Nat) :
    FreeRun free (stop - trailing free stop) (trailing free stop) := by
  induction stop with
  | zero =>
      intro position _ before
      simp only [trailing_zero] at before
      omega
  | succ stop ih =>
      intro position after before
      have bound := trailing_le free stop
      cases here : free stop with
      | false =>
          have reset := trailing_succ_of_taken here
          omega
      | true =>
          have grown := trailing_succ_of_free here
          rcases Nat.lt_or_ge position stop with earlier | last
          · exact ih position (by omega) (by omega)
          · rwa [show position = stop by omega]

/-- The trailing count is the largest number of free positions ending there. -/
theorem freeRun_iff_le_trailing {start count stop : Nat} (ends : start + count = stop) :
    FreeRun free start count ↔ count ≤ trailing free stop := by
  constructor
  · intro run
    induction stop generalizing count with
    | zero => omega
    | succ stop ih =>
        cases count with
        | zero => exact Nat.zero_le _
        | succ count =>
            rw [trailing_succ_of_free (run stop (by omega) (by omega))]
            exact Nat.succ_le_succ (ih (by omega)
              (fun position after before => run position after (by omega)))
  · intro enough position after before
    have bound := trailing_le free stop
    exact freeRun_trailing free stop position (by omega) (by omega)

/-- Without a run of the given length no trailing count reaches it. -/
theorem hasFreeRun_iff {total count : Nat} :
    HasFreeRun free total count ↔ ∃ stop ≤ total, count ≤ trailing free stop := by
  constructor
  · rintro ⟨start, inside, run⟩
    exact ⟨start + count, inside, (freeRun_iff_le_trailing rfl).mp run⟩
  · rintro ⟨stop, inside, enough⟩
    have bound := trailing_le free stop
    exact ⟨stop - count, by omega, (freeRun_iff_le_trailing (by omega)).mpr enough⟩

instance (free : Nat → Bool) (total count : Nat) : Decidable (HasFreeRun free total count) :=
  decidable_of_iff (∃ stop < total + 1, count ≤ trailing free stop) (by
    rw [hasFreeRun_iff]
    exact exists_congr fun stop => and_congr_left fun _ => Nat.lt_succ_iff)

end FirstFit

/-- A block of consecutive positions. -/
structure Extent where
  start : Nat
  count : Nat
  deriving DecidableEq, Repr

namespace Extent

/-- The position belongs to the extent. -/
def Covers (extent : Extent) (position : Nat) : Prop :=
  extent.start ≤ position ∧ position < extent.start + extent.count

instance (extent : Extent) (position : Nat) : Decidable (extent.Covers position) :=
  inferInstanceAs (Decidable (_ ∧ _))

/-- Two extents share no position. -/
def Apart (first second : Extent) : Prop :=
  first.start + first.count ≤ second.start ∨ second.start + second.count ≤ first.start

theorem Apart.symm {first second : Extent} (apart : first.Apart second) :
    second.Apart first :=
  Or.symm apart

instance : Std.Symm Apart := ⟨fun _ _ => Apart.symm⟩

theorem Apart.not_covers {first second : Extent} {position : Nat} (apart : first.Apart second)
    (covers : first.Covers position) : ¬ second.Covers position := by
  unfold Apart at apart
  unfold Covers at covers ⊢
  omega

/-- An extent that meets no position of another one is apart from it. -/
theorem apart_of_not_covers {first second : Extent} (nonempty : 1 ≤ first.count)
    (other : 1 ≤ second.count)
    (disjoint : ∀ position, first.Covers position → ¬ second.Covers position) :
    first.Apart second := by
  by_contra meets
  unfold Apart at meets
  rw [not_or, not_le, not_le] at meets
  rcases Nat.le_total first.start second.start with before | after
  · exact disjoint second.start ⟨before, meets.1⟩ ⟨le_rfl, by omega⟩
  · exact disjoint first.start ⟨le_rfl, by omega⟩ ⟨after, meets.2⟩

end Extent

/-- Pairwise apart nonempty extents inside a store of `total` positions. -/
structure Arrangement (total : Nat) (extents : List Extent) : Prop where
  nonempty : ∀ extent ∈ extents, 1 ≤ extent.count
  inside : ∀ extent ∈ extents, extent.start + extent.count ≤ total
  apart : extents.Pairwise Extent.Apart

namespace Arrangement

variable {total : Nat} {extents : List Extent}

theorem empty (total : Nat) : Arrangement total [] :=
  ⟨fun _ member => (List.not_mem_nil member).elim, fun _ member => (List.not_mem_nil member).elim,
    List.Pairwise.nil⟩

/-- A position belongs to at most one extent. -/
theorem eq_of_covers (arranged : Arrangement total extents) {first second : Extent}
    (member : first ∈ extents) (other : second ∈ extents) {position : Nat}
    (covers : first.Covers position) (covers' : second.Covers position) : first = second := by
  by_contra different
  have apart := arranged.apart.forall member other different
  exact apart.not_covers covers covers'

/-- Extents of an arrangement with the same first position are the same. -/
theorem eq_of_start (arranged : Arrangement total extents) {first second : Extent}
    (member : first ∈ extents) (other : second ∈ extents) (same : first.start = second.start) :
    first = second := by
  have one := arranged.nonempty first member
  have two := arranged.nonempty second other
  have here : first.Covers first.start := ⟨le_rfl, by omega⟩
  exact arranged.eq_of_covers member other here ⟨by omega, by omega⟩

/-- Taking a run of positions that no extent covers. -/
theorem take (arranged : Arrangement total extents) {taken : Extent} (nonempty : 1 ≤ taken.count)
    (inside : taken.start + taken.count ≤ total)
    (unowned : ∀ position, taken.Covers position → ∀ extent ∈ extents, ¬ extent.Covers position) :
    Arrangement total (taken :: extents) := by
  refine ⟨?_, ?_, ?_⟩
  · intro extent member
    rcases List.mem_cons.mp member with rfl | old
    · exact nonempty
    · exact arranged.nonempty extent old
  · intro extent member
    rcases List.mem_cons.mp member with rfl | old
    · exact inside
    · exact arranged.inside extent old
  · refine List.pairwise_cons.mpr ⟨fun extent member => ?_, arranged.apart⟩
    exact Extent.apart_of_not_covers nonempty (arranged.nonempty extent member)
      (fun position covers => unowned position covers extent member)

/-- Giving extents back. -/
theorem release (arranged : Arrangement total extents) {kept : List Extent}
    (sublist : kept.Sublist extents) : Arrangement total kept :=
  ⟨fun extent member => arranged.nonempty extent (sublist.subset member),
    fun extent member => arranged.inside extent (sublist.subset member),
    arranged.apart.sublist sublist⟩

end Arrangement
