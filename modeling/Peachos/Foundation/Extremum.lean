import Mathlib.Order.Bounds.Basic
import Mathlib.Order.OrderDual

/-! # A running extremum

`keepLeast` keeps the last of the items with the least key. After a list of items it holds one that
attains the least key (`foldl_keepLeast`), so that key does not depend on the order of the items.
The greatest key is the least one of the dual order.
-/

namespace Extremum

variable {α κ : Type*} [LinearOrder κ] (key : α → κ)

/-- The better of what is kept and a new item. -/
def keepLeast (kept : Option α) (item : α) : Option α :=
  match kept with
  | none => some item
  | some best => if key item ≤ key best then some item else some best

variable {key}

theorem keepLeast_mem {kept : Option α} {item best : α} (found : keepLeast key kept item = some best) :
    best = item ∨ kept = some best := by
  cases kept with
  | none => exact .inl (Option.some.inj found).symm
  | some other =>
      unfold keepLeast at found
      dsimp only at found
      split at found
      · exact .inl (Option.some.inj found).symm
      · exact .inr found

/-- An item with the least key of those kept and seen is kept. -/
theorem foldl_keepLeast_of_some (items : List α) : ∀ first : α, ∃ best,
    items.foldl (keepLeast key) (some first) = some best ∧ best ∈ first :: items ∧
      ∀ item ∈ first :: items, key best ≤ key item := by
  induction items with
  | nil =>
      intro first
      refine ⟨first, rfl, List.mem_cons_self, fun item member => ?_⟩
      rw [List.mem_singleton.mp member]
  | cons next items ih =>
      intro first
      by_cases better : key next ≤ key first
      · obtain ⟨best, run, member, least⟩ := ih next
        refine ⟨best, ?_, List.mem_cons_of_mem _ member, fun item present => ?_⟩
        · rw [List.foldl_cons, keepLeast, if_pos better, run]
        · rcases List.mem_cons.mp present with rfl | later
          · exact (least next List.mem_cons_self).trans better
          · exact least item later
      · obtain ⟨best, run, member, least⟩ := ih first
        have first_le := least first List.mem_cons_self
        refine ⟨best, ?_, ?_, fun item present => ?_⟩
        · rw [List.foldl_cons, keepLeast, if_neg better, run]
        · rcases List.mem_cons.mp member with rfl | later
          · exact List.mem_cons_self
          · exact List.mem_cons_of_mem _ (List.mem_cons_of_mem _ later)
        · rcases List.mem_cons.mp present with rfl | later
          · exact first_le
          · rcases List.mem_cons.mp later with rfl | last
            · exact first_le.trans (not_le.mp better).le
            · exact least item (List.mem_cons_of_mem _ last)

/-- **The extremum of a list.** -/
theorem foldl_keepLeast {items : List α} (some : items ≠ []) : ∃ best ∈ items,
    items.foldl (keepLeast key) none = .some best ∧
      IsLeast (key '' {item | item ∈ items}) (key best) := by
  obtain ⟨first, rest, rfl⟩ := List.exists_cons_of_ne_nil some
  obtain ⟨best, run, member, least⟩ := @foldl_keepLeast_of_some _ _ _ key rest first
  refine ⟨best, member, run, Set.mem_image_of_mem key member, ?_⟩
  rintro _ ⟨item, present, rfl⟩
  exact least item present

end Extremum
