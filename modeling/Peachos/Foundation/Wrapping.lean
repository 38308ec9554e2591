import Mathlib.Data.List.TakeWhile
import Mathlib.Tactic

/-! # Text wrapped into rows

A cursor that moves over rows of a fixed width: a separator ends the row, and so does the last
item that fits into it. The row that the cursor has reached is a matter of the lengths of the
lines (`cursor_row`).
-/

namespace Wrapping

variable {α : Type*} [DecidableEq α] (separator : α) (width : Nat)

/-- Move the cursor, a row and a column, over one item. -/
def advance (cursor : Nat × Nat) (item : α) : Nat × Nat :=
  if item = separator then (cursor.1 + 1, 0)
  else if width ≤ cursor.2 + 1 then (cursor.1 + 1, 0)
  else (cursor.1, cursor.2 + 1)

/-- The cursor after a text, from the first column of the first row. -/
def cursor (text : List α) : Nat × Nat := text.foldl (advance separator width) (0, 0)

/-- The rows that a text fills: the full rows of each of its lines, and one for each separator. -/
def rows (text : List α) : Nat :=
  ((text.splitOn separator).map fun line => line.length / width).sum +
    ((text.splitOn separator).length - 1)

variable {separator width}

/-- A line moves the cursor to the right and over the rows it fills. -/
theorem foldl_line {line : List α} (clean : separator ∉ line) : ∀ {row column : Nat},
    column < width → line.foldl (advance separator width) (row, column) =
      (row + (column + line.length) / width, (column + line.length) % width) := by
  induction line with
  | nil =>
      intro row column inside
      rw [List.foldl_nil, List.length_nil, Nat.add_zero, Nat.div_eq_of_lt inside, Nat.add_zero,
        Nat.mod_eq_of_lt inside]
  | cons item line ih =>
      intro row column inside
      have clean' : separator ∉ line := fun member => clean (List.mem_cons_of_mem _ member)
      have different : item ≠ separator := fun same => clean (same ▸ List.mem_cons_self)
      rw [List.foldl_cons, List.length_cons]
      by_cases full : width ≤ column + 1
      · have last : width = column + 1 := by omega
        have moved : advance separator width (row, column) item = (row + 1, 0) := by
          simp only [advance, different, full, if_true, if_false]
        rw [moved, ih clean' (by omega), show column + (line.length + 1) = width + line.length by
          omega, Nat.add_div_left _ (by omega), Nat.add_mod_left, Nat.zero_add]
        congr 1
        omega
      · have moved : advance separator width (row, column) item = (row, column + 1) := by
          simp only [advance, different, full, if_false]
        rw [moved, ih clean' (by omega), show column + 1 + line.length = column + (line.length + 1)
          by omega]

/-- The row after a text, from the start of a row. -/
theorem foldl_row (positive : 0 < width) (text : List α) (row : Nat) :
    (text.foldl (advance separator width) (row, 0)).1 = row + rows separator width text := by
  by_cases member : separator ∈ text
  · obtain ⟨line, rest, split, clean⟩ := List.eq_append_cons_of_mem member
    have shorter : rest.length < text.length := by
      rw [split, List.length_append, List.length_cons]
      omega
    have later := foldl_row positive rest (row + line.length / width + 1)
    have some := List.length_pos_iff.mpr (List.splitOn_ne_nil separator rest)
    have moved (cursor : Nat × Nat) : advance separator width cursor separator =
        (cursor.1 + 1, 0) := if_pos rfl
    rw [split, List.foldl_append, foldl_line clean positive, List.foldl_cons, moved, Nat.zero_add,
      later]
    unfold rows
    rw [List.splitOn_append_cons_self_of_not_mem clean, List.map_cons, List.sum_cons,
      List.length_cons]
    omega
  · have whole : text.splitOn separator = [text] := List.splitOn_eq_singleton member
    rw [foldl_line member positive, Nat.zero_add]
    unfold rows
    rw [whole]
    simp only [List.map_cons, List.map_nil, List.sum_cons, List.sum_nil, List.length_cons,
      List.length_nil, Nat.add_zero, Nat.zero_add, Nat.sub_self]
termination_by text.length

/-- **The row of the cursor.** -/
theorem cursor_row (positive : 0 < width) (text : List α) :
    (cursor separator width text).1 = rows separator width text := by
  rw [cursor, foldl_row positive, Nat.zero_add]

end Wrapping
