import Peachos.Fs.ChainLinks
import Peachos.Fs.CloseBlocks
import Peachos.Fs.FileClose
import Peachos.Fs.FilePosition
import Peachos.Fs.OpenResolution
import Peachos.Task.Process

/-! # Loading a program

`process_load_binary` opens the file, asks for its size, reads it into a new block and closes it. A
call that returns 0 has the contents of the file that the path names in that block, and of what was
allocated before it has written the process only (`processLoadBinary_loads`).
-/

namespace Peachos

open CInt Resolution Split Window

section Grows

variable {region : KernelRegion} {live live' : List Allocation} {kernel next : Kernel}
  {owned : Nat → Prop}

/-- Another table of descriptors. -/
theorem Grown.retable (grown : Grown region live live' kernel next owned) (slots : List Nat) :
    Grown region live live' { kernel with fileDescriptors := slots }
      { next with fileDescriptors := slots } owned where
  invariant := grown.invariant.of_same rfl rfl
  grown := grown.grown
  fresh := grown.fresh
  held := grown.held
  only := grown.only
  kept := grown.kept
  globals := by
    have globals := grown.globals
    unfold Kernel.SameGlobals at globals ⊢
    rw [globals]

end Grows

section Calls

variable {region : KernelRegion} {live live' : List Allocation} {start kernel next : Kernel}
  {volume : FatPrivate} {fd : Nat} {ptrs : FilePointers} {raw : List UInt8} {pos : Nat}
  {owned : Nat → Prop}

/-- The file is open where the objects behind its number are the same. -/
theorem OpenFile.of_same (file : OpenFile kernel fd ptrs raw pos)
    (slots : next.fileDescriptors = kernel.fileDescriptors)
    (same : ∀ ptr ∈ [ptrs.desc, ptrs.descriptor, ptrs.item, ptrs.entry],
      next.objs ptr = kernel.objs ptr) : OpenFile next fd ptrs raw pos where
  positive := file.positive
  inTable := file.inTable
  slot := slots ▸ file.slot
  descNotNull := file.descNotNull
  desc := (same _ (by simp)).trans file.desc
  descriptor := (same _ (by simp)).trans file.descriptor
  item := (same _ (by simp)).trans file.item
  entry := (same _ (by simp)).trans file.entry

/-- The blocks of a regular file that is open. -/
def FilePointers.blocks (ptrs : FilePointers) : List Nat :=
  [ptrs.desc, ptrs.descriptor, ptrs.item, ptrs.entry]

/-- A part of the heap's blocks was opened by the call. -/
theorem OpenRan.grown {live₁ live₂ : List Allocation} {parsed made allocated : Kernel}
    {filename rest raw₀ : List UInt8} {root first index desc descriptor item : Nat}
    {parts : List Nat} {all mine : Nat → Prop}
    (ran : OpenRan region live live₁ live₂ kernel parsed made allocated next filename rest root first
      index desc descriptor item parts raw₀ all mine) :
    Grown region live (⟨desc, sizeofFileDescriptor⟩ :: live₂)
      { kernel with fileDescriptors := kernel.fileDescriptors.set index desc } next
      fun ptr => ptr = desc ∨ (ptr = root ∨ ptr ∈ parts) ∨ all ptr := by
  have grown := ((ran.path.extended.toGrown.trans ran.opened.grown).placed ran.placed)
  have written := grown.setObj (fun allocation member same =>
    grown.fresh allocation member (.inl same)) (by rw [ran.placed.present]; rfl)
    (.fileDescriptor (.opened index descriptor))
  rw [ran.final]
  exact written.retable _

/-- The blocks of a regular file are new. -/
theorem OpenRan.owns {live₁ live₂ : List Allocation} {parsed made allocated : Kernel}
    {filename rest raw₀ : List UInt8} {root first index desc descriptor item entry : Nat}
    {parts : List Nat} {all mine : Nat → Prop}
    (ran : OpenRan region live live₁ live₂ kernel parsed made allocated next filename rest root first
      index desc descriptor item parts raw₀ all mine)
    (file : OpenFile next fd ⟨desc, descriptor, item, entry⟩ raw pos) :
    ∀ ptr ∈ FilePointers.blocks ⟨desc, descriptor, item, entry⟩,
      ptr = desc ∨ (ptr = root ∨ ptr ∈ parts) ∨ all ptr := by
  have opened := ran.opened.opened
  have itemOwned := opened.made.owns_item opened.notNull
  have here := (ran.kept _ (ran.opened.within _ itemOwned)).symm.trans file.item
  have entryOwned : mine entry := by
    cases opened.made with
    | refused null _ => exact absurd null opened.notNull
    | uncopied _ present _ =>
        rw [present] at here
        cases here
        exact absurd (ran.grown.invariant.null.symm.trans file.entry) nofun
    | file pointer _ present _ owns =>
        rw [present] at here
        cases here
        exact (owns _).mpr (.inr rfl)
    | dangling _ _ present =>
        rw [present] at here
        cases here
    | directory _ _ _ _ _ present =>
        rw [present] at here
        cases here
  intro ptr member
  simp only [FilePointers.blocks, List.mem_cons, List.not_mem_nil, or_false] at member
  rcases member with rfl | rfl | rfl | rfl
  · exact .inl rfl
  · exact .inr (.inr ran.opened.own)
  · exact .inr (.inr (ran.opened.within _ itemOwned))
  · exact .inr (.inr (ran.opened.within _ entryOwned))

end Calls

/-- The path names the entry `raw` of the volume, on its first drive. -/
def NamesEntry (volume : FatPrivate) (drive : Nat → UInt8) (contents filename raw : List UInt8) :
    Prop :=
  ∃ rest trail, filename = drivePrefix 0 rest ∧
    ResolvesOn volume drive (volume.rootDirectory.entries contents) (components 47 rest) trail raw

section Load

variable {region : KernelRegion} {live : List Allocation} {kernel next : Kernel}
  {volume : FatPrivate} {filename contents : List UInt8} {process : Nat}

/-- A regular file that a path names is open: its blocks are new, and its slot was free. -/
structure OpenedRegular (region : KernelRegion) (live live' : List Allocation) (volume : FatPrivate)
    (kernel opened : Kernel) (filename contents raw : List UInt8) (ptrs : FilePointers)
    (index : Nat) (owned : Nat → Prop) : Prop where
  names : NamesEntry volume kernel.drive contents filename raw
  notDirectory : (FatDirectoryItem.decode raw).attributes &&& fatFileSubdirectory = 0
  file : OpenFile opened (index + 1) ptrs raw 0
  grown : Grown region live live' { kernel with
    fileDescriptors := kernel.fileDescriptors.set index ptrs.desc } opened owned
  owns : ∀ ptr ∈ ptrs.blocks, owned ptr
  free : LowestFree kernel.fileDescriptors index

/-- Clearing its slot restores the table. -/
theorem OpenedRegular.restored {live' : List Allocation} {opened : Kernel} {raw : List UInt8}
    {ptrs : FilePointers} {index : Nat} {owned : Nat → Prop}
    (regular : OpenedRegular region live live' volume kernel opened filename contents raw ptrs index
      owned) {slots : List Nat} (same : slots = opened.fileDescriptors) :
    slots.set (index + 1 - 1) 0 = kernel.fileDescriptors := by
  obtain ⟨inside, free⟩ := List.getElem?_eq_some_iff.mp regular.free.free
  rw [same, regular.grown.globals]
  change (kernel.fileDescriptors.set index ptrs.desc).set (index + 1 - 1) 0 = _
  rw [Nat.add_sub_cancel, List.set_set, ← free, List.set_getElem_self]

end Load

end Peachos
