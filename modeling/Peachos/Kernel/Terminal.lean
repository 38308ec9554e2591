import Mathlib.Data.UInt
import Peachos.Foundation.Wrapping

/-! # The terminal

`print` of `kernel.c` writes characters to the video memory and moves a cursor of 16-bit numbers.
A row ends at a newline or at the last column; nothing happens at the last row, so the text that
is printed decides whether it stays on the screen (`printAll_onScreen_iff`).
-/

namespace Peachos

open Wrapping

abbrev vgaWidth : Nat := 80
abbrev vgaHeight : Nat := 20

/-- The character `'\n'`. -/
abbrev newline : UInt8 := 10

/-- A character stored by `terminal_putchar`. -/
structure CellStore where
  x : Nat
  y : Nat
  deriving DecidableEq, Repr

/-- The index into the video memory. -/
def CellStore.index (store : CellStore) : Nat := store.y * vgaWidth + store.x

/-- The cell is one of the screen. -/
def CellStore.OnScreen (store : CellStore) : Prop :=
  store.index < vgaWidth * vgaHeight ∧ store.y < vgaHeight ∧ store.x < vgaWidth

instance (store : CellStore) : Decidable store.OnScreen := inferInstanceAs (Decidable (_ ∧ _ ∧ _))

/-- The video memory and the cursor, with the stores so far. -/
structure Terminal where
  videoMem : Nat → UInt16
  terminalRow : UInt16 := 0
  terminalCol : UInt16 := 0
  stores : List CellStore := []

def terminalMakeChar (c colour : UInt8) : UInt16 :=
  ((colour.toInt8.toInt32 <<< 8) ||| c.toInt8.toInt32).toUInt32.toUInt16

def terminalPutchar (terminal : Terminal) (x y : Nat) (c colour : UInt8) : Terminal :=
  { terminal with
    videoMem := Function.update terminal.videoMem (y * vgaWidth + x) (terminalMakeChar c colour)
    stores := terminal.stores ++ [⟨x, y⟩] }

def terminalWritechar (terminal : Terminal) (c colour : UInt8) : Terminal :=
  if c = newline then
    { terminal with terminalRow := terminal.terminalRow + 1, terminalCol := 0 }
  else
    let terminal := terminalPutchar terminal terminal.terminalCol.toNat
      terminal.terminalRow.toNat c colour
    let terminal := { terminal with terminalCol := terminal.terminalCol + 1 }
    if terminal.terminalCol.toNat ≥ vgaWidth then
      { terminal with terminalCol := 0, terminalRow := terminal.terminalRow + 1 }
    else terminal

/-- The cells that `terminal_initialize` clears, in its order. -/
def screenCells : List CellStore :=
  (List.range vgaHeight).flatMap fun y => (List.range vgaWidth).map fun x => ⟨x, y⟩

def terminalInitialize (terminal : Terminal) : Terminal :=
  screenCells.foldl (fun terminal cell => terminalPutchar terminal cell.x cell.y 32 0)
    { terminal with terminalRow := 0, terminalCol := 0 }

def print (terminal : Terminal) (str : List UInt8) : Terminal :=
  str.foldl (fun terminal c => terminalWritechar terminal c 15) terminal

/-- A sequence of `print` calls. -/
def printAll (terminal : Terminal) (strs : List (List UInt8)) : Terminal :=
  strs.foldl print terminal

/-- The terminal is at a cursor, whose row it keeps as a 16-bit number. -/
structure Terminal.At (terminal : Terminal) (cursor : Nat × Nat) : Prop where
  row : terminal.terminalRow.toNat = cursor.1 % 65536
  column : terminal.terminalCol.toNat = cursor.2
  inside : cursor.2 < vgaWidth

/-- What a character stores at a cursor. -/
def characterStores (cursor : Nat × Nat) (c : UInt8) : List CellStore :=
  if c = newline then [] else [⟨cursor.2, cursor.1 % 65536⟩]

/-- What a text stores from a cursor on. -/
def textStores : (cursor : Nat × Nat) → (text : List UInt8) → List CellStore
  | _, [] => []
  | cursor, c :: text =>
      characterStores cursor c ++ textStores (advance newline vgaWidth cursor c) text

theorem mem_textStores {store : CellStore} : ∀ {cursor : Nat × Nat} {text : List UInt8},
    store ∈ textStores cursor text ↔ ∃ before c after, text = before ++ c :: after ∧
      store ∈ characterStores (before.foldl (advance newline vgaWidth) cursor) c := by
  intro cursor text
  induction text generalizing cursor with
  | nil =>
      refine ⟨fun member => absurd member List.not_mem_nil, ?_⟩
      rintro ⟨before, c, after, split, _⟩
      exact absurd split.symm (List.append_ne_nil_of_right_ne_nil _ (List.cons_ne_nil _ _))
  | cons head text ih =>
      rw [textStores, List.mem_append, ih]
      constructor
      · rintro (here | ⟨before, c, after, rfl, later⟩)
        · exact ⟨[], head, text, rfl, here⟩
        · exact ⟨head :: before, c, after, rfl, later⟩
      · rintro ⟨before, c, after, split, stored⟩
        cases before with
        | nil =>
            obtain ⟨rfl, rfl⟩ := List.cons_eq_cons.mp split
            exact .inl stored
        | cons first before =>
            obtain ⟨rfl, rfl⟩ := List.cons_eq_cons.mp split
            exact .inr ⟨before, c, after, rfl, stored⟩

/-- A line that ends in a newline stores its characters in the rows that it fills. -/
theorem mem_textStores_line {line : List UInt8} (clean : newline ∉ line) {row column : Nat}
    (inside : column < vgaWidth) {store : CellStore}
    (member : store ∈ textStores (row, column) (line ++ [newline])) :
    store.x < vgaWidth ∧ store.y ≤ row + (column + line.length) / vgaWidth := by
  obtain ⟨before, c, after, split, stored⟩ := mem_textStores.mp member
  have character : c ≠ newline := by
    rintro rfl
    rw [characterStores, if_pos rfl] at stored
    exact absurd stored List.not_mem_nil
  obtain ⟨rest, rfl⟩ : ∃ rest, line = before ++ rest := by
    rcases List.append_eq_append_iff.mp split with ⟨rest, rfl, last⟩ | ⟨rest, whole, _⟩
    · cases rest with
      | nil => exact absurd (List.cons_eq_cons.mp last).1.symm character
      | cons head rest =>
          have same := congrArg List.length last
          rw [List.length_singleton, List.length_append, List.length_cons, List.length_cons] at same
          omega
    · exact ⟨rest, whole⟩
  have shorter : (column + before.length) / vgaWidth ≤
      (column + (before.length + rest.length)) / vgaWidth :=
    Nat.div_le_div_right (Nat.add_le_add_left (Nat.le_add_right ..) column)
  rw [foldl_line (fun there => clean (List.mem_append_left _ there)) inside, characterStores,
    if_neg character, List.mem_singleton] at stored
  rw [stored, List.length_append]
  exact ⟨Nat.mod_lt _ (by decide), (Nat.mod_le _ _).trans (Nat.add_le_add_left shorter row)⟩

section Print

variable {terminal : Terminal} {cursor : Nat × Nat}

theorem toNat_succ (value : UInt16) : (value + 1).toNat = (value.toNat + 1) % 65536 := by
  rw [UInt16.toNat_add]
  rfl

/-- **One character.** -/
theorem terminalWritechar_step (here : terminal.At cursor) (c : UInt8) :
    (terminalWritechar terminal c 15).At (advance newline vgaWidth cursor c) ∧
      (terminalWritechar terminal c 15).stores = terminal.stores ++ characterStores cursor c := by
  obtain ⟨row, column, inside⟩ := here
  have nextRow : (terminal.terminalRow + 1).toNat = (cursor.1 + 1) % 65536 := by
    rw [toNat_succ, row]
    omega
  have nextColumn : (terminal.terminalCol + 1).toNat = cursor.2 + 1 := by
    rw [toNat_succ, column]
    unfold vgaWidth at inside
    omega
  unfold terminalWritechar advance characterStores
  by_cases ends : c = newline
  · rw [if_pos ends, if_pos ends, if_pos ends, List.append_nil]
    exact ⟨⟨nextRow, rfl, show 0 < vgaWidth by decide⟩, rfl⟩
  · rw [if_neg ends, if_neg ends, if_neg ends]
    dsimp only [terminalPutchar]
    rw [nextColumn, row, column]
    by_cases full : vgaWidth ≤ cursor.2 + 1
    · rw [if_pos full, if_pos full]
      exact ⟨⟨nextRow, rfl, show 0 < vgaWidth by decide⟩, rfl⟩
    · rw [if_neg full, if_neg full]
      exact ⟨⟨row, nextColumn, not_le.mp full⟩, rfl⟩

/-- **One string.** -/
theorem print_run : ∀ (text : List UInt8) {terminal : Terminal} {cursor : Nat × Nat},
    terminal.At cursor → (print terminal text).At (text.foldl (advance newline vgaWidth) cursor) ∧
      (print terminal text).stores = terminal.stores ++ textStores cursor text := by
  intro text
  induction text with
  | nil =>
      intro terminal cursor here
      exact ⟨here, (List.append_nil _).symm⟩
  | cons c text ih =>
      intro terminal cursor here
      obtain ⟨next, stored⟩ := terminalWritechar_step here c
      obtain ⟨final, later⟩ := ih next
      refine ⟨final, ?_⟩
      change (print (terminalWritechar terminal c 15) text).stores = _
      rw [later, stored, textStores, List.append_assoc]

/-- A sequence of strings is printed as their concatenation. -/
theorem printAll_eq (strs : List (List UInt8)) : ∀ terminal : Terminal,
    printAll terminal strs = print terminal strs.flatten := by
  induction strs with
  | nil => exact fun _ => rfl
  | cons str strs ih =>
      intro terminal
      rw [List.flatten_cons, print, List.foldl_append]
      exact ih (print terminal str)

end Print

/-- Clearing cells stores in them and leaves the cursor. -/
theorem foldl_terminalPutchar (cells : List CellStore) : ∀ terminal : Terminal,
    let final := cells.foldl (fun terminal cell => terminalPutchar terminal cell.x cell.y 32 0)
      terminal
    final.stores = terminal.stores ++ cells ∧ final.terminalRow = terminal.terminalRow ∧
      final.terminalCol = terminal.terminalCol := by
  induction cells with
  | nil => exact fun terminal => ⟨(List.append_nil _).symm, rfl, rfl⟩
  | cons cell cells ih =>
      intro terminal
      obtain ⟨stored, row, column⟩ := ih (terminalPutchar terminal cell.x cell.y 32 0)
      refine ⟨?_, row, column⟩
      rw [List.foldl_cons, stored, terminalPutchar, List.append_assoc, List.singleton_append]

/-- After `terminal_initialize` the cursor is at the first cell, and the cells of the screen are
stored. -/
theorem terminalInitialize_run (terminal : Terminal) : (terminalInitialize terminal).At (0, 0) ∧
    (terminalInitialize terminal).stores = terminal.stores ++ screenCells := by
  obtain ⟨stored, row, column⟩ :=
    foldl_terminalPutchar screenCells { terminal with terminalRow := 0, terminalCol := 0 }
  refine ⟨⟨?_, ?_, by decide⟩, stored⟩
  · rw [terminalInitialize, row]
    rfl
  · rw [terminalInitialize, column]
    rfl

theorem onScreen_of_mem_screenCells {cell : CellStore} (member : cell ∈ screenCells) :
    cell.OnScreen := by
  obtain ⟨y, below, inner⟩ := List.mem_flatMap.mp member
  obtain ⟨x, left, rfl⟩ := List.mem_map.mp inner
  rw [List.mem_range] at below left
  refine ⟨?_, below, left⟩
  unfold CellStore.index vgaWidth vgaHeight at *
  dsimp only
  omega

/-- **What stays on the screen.** Every store of the terminal, from its initialization on, is to a
cell of the screen exactly when each printed character but a newline comes after less than
`VGA_HEIGHT` rows, counted modulo `2 ^ 16`. -/
theorem printAll_onScreen_iff (videoMem : Nat → UInt16) (strs : List (List UInt8)) :
    (∀ store ∈ (printAll (terminalInitialize { videoMem := videoMem }) strs).stores,
        store.OnScreen) ↔
      ∀ before c after, strs.flatten = before ++ c :: after → c ≠ newline →
        rows newline vgaWidth before % 65536 < vgaHeight := by
  obtain ⟨start, initial⟩ := terminalInitialize_run { videoMem := videoMem }
  obtain ⟨_, stored⟩ := print_run strs.flatten start
  rw [printAll_eq, stored, initial, List.nil_append]
  have placed (before : List UInt8) : cursor newline vgaWidth before =
      (rows newline vgaWidth before, (cursor newline vgaWidth before).2) :=
    Prod.ext (cursor_row (by decide) before) rfl
  constructor
  · intro inside before c after split character
    have member : (⟨(cursor newline vgaWidth before).2,
        rows newline vgaWidth before % 65536⟩ : CellStore) ∈ textStores (0, 0) strs.flatten := by
      refine mem_textStores.mpr ⟨before, c, after, split, ?_⟩
      change _ ∈ characterStores (cursor newline vgaWidth before) c
      rw [placed before, characterStores, if_neg character]
      exact List.mem_singleton_self _
    exact (inside _ (List.mem_append_right _ member)).2.1
  · intro short store member
    rcases List.mem_append.mp member with cell | character
    · exact onScreen_of_mem_screenCells cell
    · obtain ⟨before, c, after, split, here⟩ := mem_textStores.mp character
      change _ ∈ characterStores (cursor newline vgaWidth before) c at here
      rw [characterStores] at here
      split_ifs at here with ends
      · exact absurd here List.not_mem_nil
      · rw [List.mem_singleton] at here
        have below := short before c after split ends
        have left := (print_run before start).1.inside
        change (cursor newline vgaWidth before).2 < vgaWidth at left
        rw [← cursor_row (by decide)] at below
        rw [here]
        refine ⟨?_, below, left⟩
        unfold CellStore.index vgaWidth vgaHeight at *
        dsimp only
        omega

/-- A character after twenty newlines is stored past the screen. -/
theorem printAll_twentyRows : ∃ store ∈ (printAll (terminalInitialize { videoMem := fun _ => 0 })
    [List.replicate 20 newline ++ [65]]).stores, store.index = vgaWidth * vgaHeight ∧
      ¬ store.OnScreen := by
  obtain ⟨start, _⟩ := terminalInitialize_run { videoMem := fun _ => 0 }
  obtain ⟨_, stored⟩ := print_run (List.replicate 20 newline ++ [65]) start
  refine ⟨⟨0, 20⟩, ?_, by decide, by decide⟩
  rw [printAll_eq, List.flatten_singleton, stored]
  exact List.mem_append_right _ (by decide)

end Peachos
