import Mathlib.Data.List.TakeWhile
import Mathlib.Tactic

/-! # Components between separators

The pieces of a list between separators, up to the first empty one. Joining them gives the
list back, up to one separator at the end, exactly when no piece but the last is empty
(`join_components_iff`).
-/

namespace Split

variable {α : Type*} [DecidableEq α] {separator : α} {text : List α}

/-- The pieces before the first empty one. -/
def components (separator : α) (text : List α) : List (List α) :=
  (text.splitOn separator).takeWhile fun piece => !piece.isEmpty

/-- The text before the first separator. -/
def first (separator : α) (text : List α) : List α := text.takeWhile (· ≠ separator)

/-- The text before a separator that occurs first there. -/
theorem first_append {left right : List α} (clean : separator ∉ left) :
    first separator (left ++ separator :: right) = left := by
  have kept : ∀ item ∈ left, decide (item ≠ separator) = true :=
    fun item inside => decide_eq_true fun same => clean (same ▸ inside)
  rw [first, List.takeWhile_append_of_pos kept, List.takeWhile_cons_of_neg (by simp),
    List.append_nil]

theorem first_of_not_mem (absent : separator ∉ text) : first separator text = text :=
  List.takeWhile_eq_self_iff.mpr fun _ inside => decide_eq_true fun same => absent (same ▸ inside)

/-- A piece has no separator in it. -/
theorem not_mem_piece {piece : List α} (member : piece ∈ text.splitOn separator) :
    separator ∉ piece := by
  induction text generalizing piece with
  | nil =>
      rw [List.splitOn_nil, List.mem_singleton] at member
      rw [member]
      exact List.not_mem_nil
  | cons head text ih =>
      rw [List.splitOn_cons_eq_if_modifyHead] at member
      split at member
      · rcases List.mem_cons.mp member with rfl | old
        · exact List.not_mem_nil
        · exact ih old
      next different =>
        obtain ⟨piece', rest, split⟩ := List.exists_cons_of_ne_nil
          (List.splitOn_ne_nil separator text)
        rw [split, List.modifyHead_cons] at member
        rcases List.mem_cons.mp member with rfl | old
        · have clean : separator ∉ piece' := ih (split ▸ List.mem_cons_self)
          rw [List.mem_cons, not_or]
          exact ⟨fun same => different (beq_iff_eq.mpr same.symm), clean⟩
        · exact ih (split ▸ List.mem_cons_of_mem _ old)

theorem length_first_le (separator : α) (text : List α) :
    (first separator text).length ≤ text.length :=
  (List.takeWhile_prefix _).length_le

/-- Either the text is one piece, or its pieces are the first one and those after it. -/
theorem splitOn_eq (separator : α) (text : List α) :
    (first separator text = text ∧ text.splitOn separator = [text]) ∨
      text.splitOn separator = first separator text ::
        (text.drop ((first separator text).length + 1)).splitOn separator := by
  by_cases member : separator ∈ text
  · right
    obtain ⟨left, right, rfl, clean⟩ := List.eq_append_cons_of_mem member
    rw [first_append clean, List.splitOn_append_cons_self_of_not_mem clean,
      List.drop_append, List.drop_of_length_le (Nat.le_succ _), Nat.add_sub_cancel_left,
      List.nil_append, List.drop_succ_cons, List.drop_zero]
  · exact .inl ⟨first_of_not_mem member, List.splitOn_eq_singleton member⟩

/-- An empty first piece ends the components. -/
theorem components_of_empty (empty : first separator text = []) : components separator text = [] := by
  rcases splitOn_eq separator text with ⟨whole, split⟩ | split
  · rw [components, split, ← whole, empty]
    rfl
  · rw [components, split, empty]
    rfl

/-- Otherwise the components are the first piece and those after it. -/
theorem components_of_nonempty (nonempty : first separator text ≠ []) :
    components separator text = first separator text ::
      components separator (text.drop ((first separator text).length + 1)) := by
  have taken : ∀ rest, (first separator text :: rest).takeWhile (fun piece => !piece.isEmpty) =
      first separator text :: rest.takeWhile fun piece => !piece.isEmpty := by
    intro rest
    rw [List.takeWhile_cons, List.isEmpty_eq_false_iff.mpr nonempty]
    rfl
  rcases splitOn_eq separator text with ⟨whole, split⟩ | split
  · rw [whole] at taken ⊢
    rw [components, split, taken, List.drop_of_length_le (Nat.le_succ _)]
    rfl
  · rw [components, split, taken]
    rfl

omit [DecidableEq α] in
theorem join_append_empty {pieces : List (List α)} (nonempty : pieces ≠ []) :
    [separator].intercalate (pieces ++ [[]]) = [separator].intercalate pieces ++ [separator] := by
  induction pieces with
  | nil => exact (nonempty rfl).elim
  | cons piece rest ih =>
      cases rest with
      | nil => simp
      | cons second rest =>
          rw [List.cons_append, List.cons_append, List.intercalate_cons_cons, ← List.cons_append,
            ih (List.cons_ne_nil _ _), List.intercalate_cons_cons]
          simp only [List.append_assoc]

/-- **The components of joined pieces.** -/
theorem components_join {pieces : List (List α)}
    (clean : ∀ piece ∈ pieces, piece ≠ [] ∧ separator ∉ piece) :
    components separator ([separator].intercalate pieces) = pieces ∧
      components separator ([separator].intercalate pieces ++ [separator]) = pieces := by
  have taken : ∀ rest, (pieces ++ rest).takeWhile (fun piece => !piece.isEmpty) =
      pieces ++ rest.takeWhile fun piece => !piece.isEmpty := fun rest =>
    List.takeWhile_append_of_pos fun piece member => by
      rw [List.isEmpty_eq_false_iff.mpr (clean piece member).1]
      rfl
  by_cases none : pieces = []
  · subst none
    have single : [separator].splitOn separator = [[], []] := by
      rw [List.splitOn_cons_eq_if_modifyHead, if_pos (beq_self_eq_true separator),
        List.splitOn_nil]
    exact ⟨rfl, by rw [components, List.intercalate_nil, List.nil_append, single]; rfl⟩
  · constructor
    · rw [components, List.splitOn_intercalate separator (fun piece member =>
        (clean piece member).2) none, ← List.append_nil pieces, taken, List.takeWhile_nil]
    · have clean' : ∀ piece ∈ pieces ++ [[]], separator ∉ piece := by
        intro piece member
        rcases List.mem_append.mp member with old | last
        · exact (clean piece old).2
        · rw [List.mem_singleton.mp last]
          exact List.not_mem_nil
      rw [components, ← join_append_empty none, List.splitOn_intercalate separator clean'
        (List.append_ne_nil_of_right_ne_nil _ (List.cons_ne_nil _ _)), taken]
      exact List.append_nil pieces

/-- **Joining the components.** -/
theorem join_components_iff (some : components separator text ≠ []) :
    ([separator].intercalate (components separator text) = text ∨
        [separator].intercalate (components separator text) ++ [separator] = text) ↔
      [] ∉ (text.splitOn separator).dropLast := by
  have clean : ∀ piece ∈ components separator text, separator ∉ piece := fun piece member =>
    not_mem_piece ((List.takeWhile_prefix _).subset member)
  have full : ∀ piece ∈ components separator text, piece ≠ [] := by
    intro piece member
    have taken := List.mem_takeWhile_imp member
    simpa using taken
  constructor
  · rintro (same | same)
    · have split := List.splitOn_intercalate separator clean some
      rw [same] at split
      rw [split]
      exact fun member => full [] (List.dropLast_subset _ member) rfl
    · have clean' : ∀ piece ∈ components separator text ++ [[]], separator ∉ piece := by
        intro piece member
        rcases List.mem_append.mp member with old | last
        · exact clean piece old
        · rw [List.mem_singleton.mp last]
          exact List.not_mem_nil
      have split := List.splitOn_intercalate separator clean'
        (List.append_ne_nil_of_right_ne_nil _ (List.cons_ne_nil _ _))
      rw [join_append_empty some, same] at split
      rw [split, List.dropLast_concat]
      exact fun member => full [] member rfl
  · intro inner
    have whole : text = [separator].intercalate (text.splitOn separator) :=
      (List.intercalate_splitOn separator).symm
    have split := @List.takeWhile_append_dropWhile _ (fun piece => !piece.isEmpty)
      (text.splitOn separator)
    change components separator text ++ _ = _ at split
    cases rest : (text.splitOn separator).dropWhile fun piece => !piece.isEmpty with
    | nil =>
        rw [rest, List.append_nil] at split
        exact .inl (by rw [split, ← whole])
    | cons piece more =>
        have empty : piece = [] := by
          have stop := List.head_dropWhile_not (fun piece : List α => !piece.isEmpty)
            (rest ▸ List.cons_ne_nil piece more)
          simpa only [rest, List.head_cons, Bool.not_eq_false', List.isEmpty_iff] using stop
        rw [rest, empty] at split
        cases more with
        | nil =>
            right
            rw [← join_append_empty some, split, ← whole]
        | cons next more =>
            rw [← split, List.dropLast_append_cons] at inner
            exact (inner (List.mem_append_right _ List.mem_cons_self)).elim

end Split
