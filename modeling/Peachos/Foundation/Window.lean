import Mathlib.Data.List.Basic
import Mathlib.Data.List.Range
import Mathlib.Tactic

/-! # Windows of an unbounded sequence, and sequences assembled from pieces

`window content start count` lists `count` consecutive values of a sequence.
`assembled pieces size` is the sequence made of pieces of one size laid end to end,
and `flatMap_window` says that it lists the same values as the concatenation of the
pieces themselves.
-/

namespace Window

variable {α : Type}

/-- The `count` values of a sequence from `start` on. -/
def window (content : Nat → α) (start count : Nat) : List α :=
  (List.range count).map fun offset => content (start + offset)

@[simp] theorem length_window (content : Nat → α) (start count : Nat) :
    (window content start count).length = count := by
  simp only [window, List.length_map, List.length_range]

@[simp] theorem window_zero (content : Nat → α) (start : Nat) : window content start 0 = [] := rfl

theorem getElem?_window {content : Nat → α} {start count offset : Nat} (inside : offset < count) :
    (window content start count)[offset]? = some (content (start + offset)) := by
  simp only [window, List.getElem?_map, List.getElem?_range inside, Option.map_some]

theorem window_succ (content : Nat → α) (start count : Nat) :
    window content start (count + 1) = content start :: window content (start + 1) count := by
  simp only [window, List.range_succ_eq_map, List.map_cons, List.map_map, Nat.add_zero]
  congr 1
  apply List.map_congr_left
  intro offset _
  simp only [Function.comp_apply, Nat.succ_eq_add_one]
  congr 1
  omega

/-- Two adjacent windows. -/
theorem window_append (content : Nat → α) (start first second : Nat) :
    window content start first ++ window content (start + first) second =
      window content start (first + second) := by
  induction first generalizing start with
  | zero => simp only [window_zero, Nat.add_zero, List.nil_append, Nat.zero_add]
  | succ first ih =>
      rw [window_succ, List.cons_append, show start + (first + 1) = start + 1 + first by omega,
        ih, show first + 1 + second = first + second + 1 by omega, window_succ]

/-- Windows are equal when their values are. -/
theorem window_congr {left right : Nat → α} {start start' count : Nat}
    (same : ∀ offset < count, left (start + offset) = right (start' + offset)) :
    window left start count = window right start' count := by
  apply List.map_congr_left
  intro offset member
  exact same offset (List.mem_range.mp member)

/-- Equal windows have equal values. -/
theorem window_injective {left right : Nat → α} {start start' count : Nat}
    (same : window left start count = window right start' count) :
    ∀ offset < count, left (start + offset) = right (start' + offset) := by
  intro offset inside
  have values := congrArg (fun values => values[offset]?) same
  simp only [getElem?_window inside, Option.some.injEq] at values
  exact values

theorem take_window (content : Nat → α) (start : Nat) {count total : Nat} (fits : count ≤ total) :
    (window content start total).take count = window content start count := by
  have split := window_append content start count (total - count)
  rw [show count + (total - count) = total by omega] at split
  rw [← split, List.take_left' (length_window ..)]

theorem drop_window (content : Nat → α) (start : Nat) {count total : Nat} (fits : count ≤ total) :
    (window content start total).drop count = window content (start + count) (total - count) := by
  have split := window_append content start count (total - count)
  rw [show count + (total - count) = total by omega] at split
  rw [← split, List.drop_left' (length_window ..)]

/-- The sequence made of pieces of `size` values each, laid end to end. -/
def assembled (pieces : Nat → Nat → α) (size : Nat) (position : Nat) : α :=
  pieces (position / size) (position % size)

/-- The assembled sequence lists the concatenation of the pieces. -/
theorem flatMap_window (pieces : Nat → Nat → α) {size : Nat} (positive : 0 < size) (count : Nat) :
    ((List.range count).flatMap fun piece => window (pieces piece) 0 size) =
      window (assembled pieces size) 0 (count * size) := by
  induction count with
  | zero => simp only [List.range_zero, List.flatMap_nil, Nat.zero_mul, window_zero]
  | succ count ih =>
      rw [List.range_succ, List.flatMap_append, ih, Nat.add_mul, Nat.one_mul,
        ← window_append, Nat.zero_add]
      congr 1
      simp only [List.flatMap_cons, List.flatMap_nil, List.append_nil]
      apply window_congr
      intro offset inside
      unfold assembled
      rw [Nat.zero_add, Nat.mul_comm count size, Nat.mul_add_div positive,
        Nat.div_eq_of_lt inside, Nat.mul_add_mod, Nat.mod_eq_of_lt inside, Nat.add_zero]

end Window
