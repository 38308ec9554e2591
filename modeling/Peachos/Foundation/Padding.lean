import Mathlib.Data.List.TakeWhile
import Mathlib.Tactic

/-! # Texts in fields of a fixed size

`padded blank size text` is a text with blanks after it up to a size. A text without a blank in it
is found again (`takeWhile_padded`), so padding loses nothing (`padded_inj`), and a field that is
written from its start holds the text written so far.
-/

namespace Padding

variable {α β : Type*} {blank : α} {size : Nat} {text : List α}

/-- A text with blanks after it. -/
def padded (blank : α) (size : Nat) (text : List α) : List α :=
  text ++ List.replicate (size - text.length) blank

theorem length_padded (fits : text.length ≤ size) : (padded blank size text).length = size := by
  rw [padded, List.length_append, List.length_replicate]
  omega

/-- A text that does not fill the field ends before a blank. -/
theorem padded_of_lt (fits : text.length < size) :
    padded blank size text = text ++ blank :: List.replicate (size - text.length - 1) blank := by
  rw [padded, ← List.replicate_succ]
  congr 2
  omega

theorem map_padded (change : α → β) :
    (padded blank size text).map change = padded (change blank) size (text.map change) := by
  rw [padded, padded, List.map_append, List.map_replicate, List.length_map]

/-- Writing an item after the text. -/
theorem padded_set (fits : text.length < size) (item : α) :
    (padded blank size text).set text.length item = padded blank size (text ++ [item]) := by
  have shorter : size - (text ++ [item]).length = size - text.length - 1 := by
    rw [List.length_append, List.length_singleton]
    omega
  rw [padded_of_lt fits, padded, shorter, List.set_append_right _ _ le_rfl, Nat.sub_self,
    List.set_cons_zero, List.append_assoc, List.singleton_append]

/-- Writing a blank after the text. -/
theorem padded_set_blank (fits : text.length < size) :
    (padded blank size text).set text.length blank = padded blank size text := by
  rw [padded_set fits, padded_of_lt fits, padded, List.append_assoc, List.length_append,
    List.length_singleton, List.singleton_append, Nat.sub_sub]

/-- A text of kept items is what comes before the first blank or the end. -/
theorem takeWhile_padded {keeps : α → Bool} (all : ∀ item ∈ text, keeps item = true)
    (stop : keeps blank = false) : (padded blank size text).takeWhile keeps = text := by
  rw [padded, List.takeWhile_append_of_pos all, List.takeWhile_replicate, stop]
  exact List.append_nil text

theorem padded_inj {keeps : α → Bool} {other : List α} (all : ∀ item ∈ text, keeps item = true)
    (all' : ∀ item ∈ other, keeps item = true) (stop : keeps blank = false) :
    padded blank size text = padded blank size other ↔ text = other := by
  refine ⟨fun same => ?_, fun same => same ▸ rfl⟩
  rw [← @takeWhile_padded _ _ size _ _ all stop, same, takeWhile_padded all' stop]

end Padding
