import Peachos.Foundation.Extremum
import Peachos.Loader.ElfSpec

/-! # The bounds of the loaded segments

`elf_process_phdr_pt_load` keeps the lowest start and the highest end of the `PT_LOAD` segments,
with zero for none yet. The bounds are the running extrema of the segments, each with the physical
address of a segment that attains it.
-/

namespace Peachos

open CInt Extremum OrderDual

/-- The address after the last byte of a segment in the file. -/
def Elf32Phdr.stop (phdr : Elf32Phdr) : Nat := phdr.pVaddr + phdr.pFilesz

/-- A segment whose addresses are not null and do not wrap. -/
structure Elf32Phdr.Addressed (phdr : Elf32Phdr) : Prop where
  notNull : 0 < phdr.pVaddr
  inMemory : phdr.stop < 4294967296

/-- The `PT_LOAD` entries of a program header table. -/
def loadSegments (table : List Elf32Phdr) : List Elf32Phdr :=
  table.filter fun phdr => phdr.pType = ptLoad

theorem loadSegments_cons_load {phdr : Elf32Phdr} (loaded : phdr.pType = ptLoad)
    (table : List Elf32Phdr) : loadSegments (phdr :: table) = phdr :: loadSegments table := by
  simp only [loadSegments, List.filter_cons, loaded, decide_true, if_true]

theorem loadSegments_cons_other {phdr : Elf32Phdr} (other : ¬ phdr.pType = ptLoad)
    (table : List Elf32Phdr) : loadSegments (phdr :: table) = loadSegments table := by
  simp only [loadSegments, List.filter_cons, other, decide_false, Bool.false_eq_true, if_false]

/-- The bounds that a file has for the segments kept as the lowest and the highest. -/
structure ElfFile.Bounds (file : ElfFile) (base : Nat) (low high : Option Elf32Phdr) : Prop where
  elfMemory : file.elfMemory = base
  virtualBase : file.virtualBaseAddress = low.elim 0 Elf32Phdr.pVaddr
  physicalBase : file.physicalBaseAddress = low.elim 0 fun phdr => u32 (base + phdr.pOffset)
  virtualEnd : file.virtualEndAddress = high.elim 0 Elf32Phdr.stop
  physicalEnd : file.physicalEndAddress =
    high.elim 0 fun phdr => u32 (base + phdr.pOffset + phdr.pFilesz)
  lowAddressed : ∀ phdr ∈ low, phdr.Addressed
  highAddressed : ∀ phdr ∈ high, phdr.Addressed

section Bounds

variable {file : ElfFile} {base : Nat} {low high : Option Elf32Phdr} {phdr : Elf32Phdr}

/-- The end of a segment, for the greatest one. -/
def stopDual (phdr : Elf32Phdr) : Natᵒᵈ := toDual phdr.stop

theorem addressed_keepLeast {κ : Type} [LinearOrder κ] {key : Elf32Phdr → κ}
    {kept : Option Elf32Phdr} (old : ∀ best ∈ kept, best.Addressed) (addressed : phdr.Addressed) :
    ∀ best ∈ keepLeast key kept phdr, best.Addressed := by
  intro best found
  rcases keepLeast_mem found with rfl | before
  · exact addressed
  · exact old best before

theorem ElfFile.Bounds.lowerBase (bounds : file.Bounds base low high) (addressed : phdr.Addressed) :
    (file.lowerBase phdr).Bounds base (keepLeast Elf32Phdr.pVaddr low phdr) high := by
  have kept := @addressed_keepLeast _ _ _ Elf32Phdr.pVaddr _ bounds.lowAddressed addressed
  have lowered : file.virtualBaseAddress ≥ phdr.pVaddr ∨ file.virtualBaseAddress = 0 →
      keepLeast Elf32Phdr.pVaddr low phdr = some phdr →
      (file.lowerBase phdr).Bounds base (keepLeast Elf32Phdr.pVaddr low phdr) high := by
    intro replaces least
    rw [least] at kept ⊢
    rw [ElfFile.lowerBase, if_pos replaces]
    exact ⟨bounds.elfMemory, rfl, by rw [bounds.elfMemory]; rfl, bounds.virtualEnd,
      bounds.physicalEnd, kept, bounds.highAddressed⟩
  cases low with
  | none => exact lowered (.inr bounds.virtualBase) rfl
  | some best =>
      have here : file.virtualBaseAddress = best.pVaddr := bounds.virtualBase
      have positive := (bounds.lowAddressed best rfl).notNull
      by_cases better : phdr.pVaddr ≤ best.pVaddr
      · exact lowered (.inl (here ▸ better)) (if_pos better)
      · have same : keepLeast Elf32Phdr.pVaddr (some best) phdr = some best := if_neg better
        rw [ElfFile.lowerBase, if_neg (by omega), same]
        exact bounds

theorem ElfFile.Bounds.raiseEnd (bounds : file.Bounds base low high) (addressed : phdr.Addressed) :
    (file.raiseEnd phdr).Bounds base low (keepLeast stopDual high phdr) := by
  have kept := @addressed_keepLeast _ _ _ stopDual _ bounds.highAddressed addressed
  have stop : u32 (phdr.pVaddr + phdr.pFilesz) = phdr.stop := u32_natCast addressed.inMemory
  have raised : file.virtualEndAddress ≤ phdr.stop ∨ file.virtualEndAddress = 0 →
      keepLeast stopDual high phdr = some phdr →
      (file.raiseEnd phdr).Bounds base low (keepLeast stopDual high phdr) := by
    intro replaces greatest
    rw [greatest] at kept ⊢
    unfold ElfFile.raiseEnd
    dsimp only
    rw [stop, if_pos replaces]
    exact ⟨bounds.elfMemory, bounds.virtualBase, bounds.physicalBase, rfl,
      by rw [bounds.elfMemory]; rfl, bounds.lowAddressed, kept⟩
  cases high with
  | none => exact raised (.inr bounds.virtualEnd) rfl
  | some best =>
      have here : file.virtualEndAddress = best.stop := bounds.virtualEnd
      have positive := (bounds.highAddressed best rfl).notNull
      have above : 0 < best.stop := Nat.add_pos_left positive _
      by_cases better : best.stop ≤ phdr.stop
      · exact raised (.inl (here ▸ better)) (if_pos (toDual_le_toDual.mpr better))
      · have same : keepLeast stopDual (some best) phdr = some best :=
          if_neg fun dual => better (toDual_le_toDual.mp dual)
        unfold ElfFile.raiseEnd
        dsimp only
        rw [stop, if_neg (by omega), same]
        exact bounds

/-- The bounds after the rest of the table. -/
theorem ElfFile.Bounds.foldl (table : List Elf32Phdr) : ∀ {file : ElfFile}
    {low high : Option Elf32Phdr}, file.Bounds base low high →
    (∀ phdr ∈ loadSegments table, phdr.Addressed) →
    (table.foldl ElfFile.process file).Bounds base
      ((loadSegments table).foldl (keepLeast Elf32Phdr.pVaddr) low)
      ((loadSegments table).foldl (keepLeast stopDual) high) := by
  induction table with
  | nil => exact fun bounds _ => bounds
  | cons phdr table ih =>
      intro file low high bounds addressed
      by_cases loaded : phdr.pType = ptLoad
      · rw [loadSegments_cons_load loaded] at addressed ⊢
        have here := addressed phdr List.mem_cons_self
        rw [List.foldl_cons, List.foldl_cons, List.foldl_cons, ElfFile.process, if_pos loaded]
        exact ih ((bounds.lowerBase here).raiseEnd here)
          fun other member => addressed other (List.mem_cons_of_mem _ member)
      · rw [loadSegments_cons_other loaded] at addressed ⊢
        rw [List.foldl_cons, ElfFile.process, if_neg loaded]
        exact ih bounds addressed

end Bounds

/-- The bounds of a file are those of the `PT_LOAD` entries of a table. -/
structure SegmentBounds (table : List Elf32Phdr) (elfMemory : Nat) (file : ElfFile) : Prop where
  virtualBase : IsLeast (Elf32Phdr.pVaddr '' {phdr | phdr ∈ loadSegments table})
    file.virtualBaseAddress
  virtualEnd : IsGreatest (Elf32Phdr.stop '' {phdr | phdr ∈ loadSegments table})
    file.virtualEndAddress
  physicalBase : ∃ phdr ∈ loadSegments table, phdr.pVaddr = file.virtualBaseAddress ∧
    file.physicalBaseAddress = u32 (elfMemory + phdr.pOffset)
  physicalEnd : ∃ phdr ∈ loadSegments table, phdr.stop = file.virtualEndAddress ∧
    file.physicalEndAddress = u32 (elfMemory + phdr.pOffset + phdr.pFilesz)

section Table

variable {memory memory' : Nat → UInt8} {elfMemory elfMemory' : Nat} {table : List Elf32Phdr}

theorem segmentBounds_foldl (some : loadSegments table ≠ [])
    (addressed : ∀ phdr ∈ loadSegments table, phdr.Addressed) :
    SegmentBounds table elfMemory
      (table.foldl ElfFile.process { elfMemory := elfMemory }) := by
  have start : ElfFile.Bounds { elfMemory := elfMemory } elfMemory none none :=
    ⟨rfl, rfl, rfl, rfl, rfl, by simp, by simp⟩
  have bounds := start.foldl table addressed
  obtain ⟨low, lowHere, lowKept, least⟩ := @foldl_keepLeast _ _ _ Elf32Phdr.pVaddr _ some
  obtain ⟨high, highHere, highKept, greatest⟩ := @foldl_keepLeast _ _ _ stopDual _ some
  rw [lowKept, highKept] at bounds
  have base : _ = low.pVaddr := bounds.virtualBase
  have stop : _ = high.stop := bounds.virtualEnd
  refine ⟨by rw [base]; exact least, ?_, ⟨low, lowHere, base.symm, bounds.physicalBase⟩,
    ⟨high, highHere, stop.symm, bounds.physicalEnd⟩⟩
  rw [stop]
  refine ⟨Set.mem_image_of_mem _ highHere, ?_⟩
  rintro _ ⟨phdr, member, rfl⟩
  exact toDual_le_toDual.mp (greatest.2 ⟨phdr, member, rfl⟩)

/-- **The bounds of a table.** They are the extrema of its `PT_LOAD` entries, each paired with the
physical address of an entry that attains it, and a table with the same entries in another order
has the same virtual bounds. -/
theorem elfProcessPheaders_bounds
    (addressed : ∀ phdr ∈ loadSegments (elfProgramHeaders memory elfMemory), phdr.Addressed)
    (some : loadSegments (elfProgramHeaders memory elfMemory) ≠ [])
    (permuted : (elfProgramHeaders memory' elfMemory').Perm (elfProgramHeaders memory elfMemory)) :
    ∃ final final',
      elfProcessPheaders.run { memory := memory, file := { elfMemory := elfMemory } } =
        .ok (0, final) ∧
      elfProcessPheaders.run { memory := memory', file := { elfMemory := elfMemory' } } =
        .ok (0, final') ∧
      SegmentBounds (elfProgramHeaders memory elfMemory) elfMemory final.file ∧
      final'.file.virtualBaseAddress = final.file.virtualBaseAddress ∧
      final'.file.virtualEndAddress = final.file.virtualEndAddress := by
  obtain ⟨added, run, _⟩ := elfProcessPheaders_run memory { elfMemory := elfMemory } []
  obtain ⟨added', run', _⟩ := elfProcessPheaders_run memory' { elfMemory := elfMemory' } []
  have segments := permuted.filter fun phdr => decide (phdr.pType = ptLoad)
  have same : {phdr | phdr ∈ loadSegments (elfProgramHeaders memory' elfMemory')} =
      {phdr | phdr ∈ loadSegments (elfProgramHeaders memory elfMemory)} :=
    Set.ext fun phdr => segments.mem_iff
  have bounds := @segmentBounds_foldl elfMemory _ some addressed
  have bounds' := @segmentBounds_foldl elfMemory' _
    (fun empty => some (List.perm_nil.mp (empty ▸ segments.symm)))
    fun phdr member => addressed phdr (segments.mem_iff.mp member)
  have base := bounds'.virtualBase
  have stop := bounds'.virtualEnd
  rw [same] at base stop
  exact ⟨_, _, run, run', bounds, base.unique bounds.virtualBase, stop.unique bounds.virtualEnd⟩

end Table

/-- An image at address 4096 with three program headers after its header: a segment at `0x401000`, an
entry of another type, and a segment at `0x400000`. -/
def segmentsMemory (address : Nat) : UInt8 :=
  match address - 4096 with
  | 28 => 52
  | 44 => 3
  | 52 => 1
  | 57 => 0x10
  | 61 => 0x10
  | 62 => 0x40
  | 69 => 0x02
  | 84 => 4
  | 116 => 1
  | 126 => 0x40
  | 133 => 0x01
  | _ => 0

theorem segmentsMemory_headers : elfProgramHeaders segmentsMemory 4096 =
    [⟨1, 0x1000, 0x401000, 0x200⟩, ⟨4, 0, 0, 0⟩, ⟨1, 0, 0x400000, 0x100⟩] := by
  decide +kernel

/-- The bounds of that image. -/
theorem elfProcessPheaders_bounds_three : ∃ final,
    elfProcessPheaders.run { memory := segmentsMemory, file := { elfMemory := 4096 } } =
        .ok (0, final) ∧
      SegmentBounds (elfProgramHeaders segmentsMemory 4096) 4096 final.file := by
  have segments : loadSegments (elfProgramHeaders segmentsMemory 4096) =
      [⟨1, 0x1000, 0x401000, 0x200⟩, ⟨1, 0, 0x400000, 0x100⟩] := by
    rw [segmentsMemory_headers]
    rfl
  obtain ⟨final, _, run, _, bounds, _⟩ := @elfProcessPheaders_bounds segmentsMemory _ 4096 _
    (by
      rw [segments]
      intro phdr member
      simp only [List.mem_cons, List.not_mem_nil, or_false] at member
      rcases member with rfl | rfl
      · exact ⟨by decide, by decide⟩
      · exact ⟨by decide, by decide⟩)
    (by
      rw [segments]
      exact List.cons_ne_nil _ _)
    (List.Perm.refl _)
  exact ⟨final, run, bounds⟩

end Peachos
