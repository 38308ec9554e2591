import Peachos.Fs.FileTableRuns
import Peachos.Fs.OpenOutcome
import Peachos.Fs.Resolution

/-! # The file that a path names

`fopen` parses its path into components, opens what these resolve to on the disk, and puts a
descriptor for it into the lowest free slot of the table (`fopen_ran`). So a file number stands for
the entry that the path names (`fopen_resolves`).
-/

namespace Peachos

open CInt Resolution Split

/-- A call of `fopen` that returned a file number: the path it parsed, what it opened, and the
descriptor in the slot `index` of the table. -/
structure OpenRan (region : KernelRegion) (live live₁ live₂ : List Allocation)
    (kernel parsed made allocated next : Kernel) (filename rest : List UInt8)
    (root first index desc descriptor item : Nat) (ptrs : List Nat) (raw : List UInt8)
    (all owned : Nat → Prop) : Prop where
  named : filename = drivePrefix 0 rest
  path : PathParsed region live live₁ kernel parsed root 0 first (components 47 rest) ptrs
  opening : (fat16Open diskstreamerRead first fileModeRead).run parsed = .ok (descriptor, made)
  succeeds : isErr descriptor = false
  opened : PathOpened region live₁ live₂ parsed made descriptor item raw all owned
  slot : LowestFree kernel.fileDescriptors index
  placed : Placed region live₂ (⟨desc, sizeofFileDescriptor⟩ :: live₂) made (.fileDescriptor {}) desc
    allocated
  final : next = allocated.setDescriptor desc (.opened index descriptor)
    (kernel.fileDescriptors.set index desc)

section Ran

variable {region : KernelRegion} {live : List Allocation} {kernel next : Kernel}
  {volume : FatPrivate} {filename modeStr : List UInt8} {fd : Int}

end Ran

/-- What an open item leads to: the copy of a file's entry, or null where there was no memory for it,
a directory with the entries that `Subdirectory` says, or no directory where it was not loaded. -/
inductive OpenedOn (volume : FatPrivate) (drive : Nat → UInt8) (kernel : Kernel) (entry : Nat)
    (raw : List UInt8) : (type : Nat) → Prop
  | file (regular : (FatDirectoryItem.decode raw).attributes &&& fatFileSubdirectory = 0)
      (copy : entry = 0 ∨ kernel.objs entry = some (.bytes raw)) :
      OpenedOn volume drive kernel entry raw fatItemTypeFile
  | directory (value : FatDirectory) (contents : List UInt8)
      (there : kernel.objs entry = some (.fatDirectory value))
      (buffer : value.total ≠ 0 → kernel.objs value.item = some (.bytes contents))
      (leads : Subdirectory volume drive raw (value.entries contents)) :
      OpenedOn volume drive kernel entry raw fatItemTypeDirectory
  | dangling (subdirectory : (FatDirectoryItem.decode raw).attributes &&& fatFileSubdirectory ≠ 0)
      (gone : ∀ value, kernel.objs entry ≠ some (.fatDirectory value)) :
      OpenedOn volume drive kernel entry raw fatItemTypeDirectory

section Opened

variable {region : KernelRegion} {live live₁ live₂ : List Allocation}
  {kernel parsed made allocated next : Kernel} {volume : FatPrivate}
  {filename rest raw₀ raw contents : List UInt8} {root first index desc descriptor item : Nat}
  {ptrs : List Nat} {all owned : Nat → Prop} {drive : Nat → UInt8}

/-- What the item of an entry leads to stays while its blocks do. -/
theorem ItemOf.openedOn (itemOf : ItemOf volume drive made item raw)
    (itemMade : ItemMade live₂ made raw₀ item owned) (notNull : item ≠ 0)
    (kept : ∀ ptr, owned ptr → next.objs ptr = made.objs ptr)
    (old : ∀ ptr value, next.objs ptr = some (.fatDirectory value) →
      made.objs ptr = some (.fatDirectory value)) :
    ∃ entry type, next.objs item = some (.fatItem { pointer := entry, type := type }) ∧
      OpenedOn volume drive next entry raw type := by
  have here := kept item (itemMade.owns_item notNull)
  cases itemOf with
  | file pointer regular present copy =>
      refine ⟨pointer, _, here.trans present, .file regular ?_⟩
      cases itemMade with
      | refused null _ => exact absurd null notNull
      | uncopied _ present' _ =>
          rw [present'] at present
          cases present
          exact .inl rfl
      | file _ _ present' _ owns =>
          rw [present'] at present
          cases present
          exact copy.imp_right ((kept pointer ((owns pointer).mpr (.inr rfl))).trans)
      | dangling _ _ present' =>
          rw [present'] at present
          cases present
      | directory _ _ _ _ _ present' =>
          rw [present'] at present
          cases present
  | directory pointer value contents present there buffer leads =>
      refine ⟨pointer, _, here.trans present, ?_⟩
      cases itemMade with
      | refused null _ => exact absurd null notNull
      | uncopied _ present' _ =>
          rw [present'] at present
          cases present
      | file _ _ present' =>
          rw [present'] at present
          cases present
      | dangling _ _ present' freed =>
          rw [present'] at present
          cases present
          rw [freed] at there
          cases there
      | directory _ _ _ _ _ present' loaded owns =>
          rw [present'] at present
          cases present
          rw [loaded.present] at there
          cases there
          rw [loaded.buffer] at buffer
          cases buffer
          have own := (owns _).mpr (.inr loaded.owns)
          refine .directory value contents ((kept _ own).trans loaded.present) (fun some => ?_)
            leads
          have notEmpty : contents ≠ [] := by
            rintro rfl
            obtain ⟨count, total, length⟩ := loaded.count
            rw [List.length_nil, eq_comm, Nat.mul_eq_zero] at length
            rw [total, length.resolve_left (by decide)] at some
            exact some rfl
          have own' := (owns _).mpr (.inr ((loaded.buffered notEmpty _).mpr (.inr rfl)))
          exact (kept _ own').trans loaded.buffer
  | dangling pointer subdirectory present freed =>
      refine ⟨pointer, _, here.trans present, .dangling subdirectory fun value present' => ?_⟩
      rw [old pointer value present'] at freed
      cases freed

/-- What the filesystem has opened is still there at the end. -/
theorem OpenRan.kept
    (ran : OpenRan region live live₁ live₂ kernel parsed made allocated next filename rest root first
      index desc descriptor item ptrs raw₀ all owned) (ptr : Nat) (own : all ptr) :
    next.objs ptr = made.objs ptr := by
  obtain ⟨allocation, member, rfl⟩ := ran.opened.grown.held ptr own
  rw [ran.final]
  exact (Kernel.setObj_objs_of_ne _ _ (ran.placed.fresh allocation member)).trans
    (ran.placed.kept allocation member)

/-- The slot of the file number, what it leads to, and the entry that the path resolves to. -/
theorem OpenRan.resolves
    (ran : OpenRan region live live₁ live₂ kernel parsed made allocated next filename rest root first
      index desc descriptor item ptrs raw₀ all owned)
    (mounted : RootLive live volume kernel) (bounded : VolumeBounded volume kernel)
    (buffer : kernel.objs volume.rootDirectory.item = some (.bytes contents))
    (size : kernel.fileDescriptors.length = peachosMaxFileDescriptors) :
    ∃ trail raw entry type,
      ResolvesOn volume kernel.drive (volume.rootDirectory.entries contents) (components 47 rest)
        trail raw ∧
      OpenItem next (index + 1) ⟨desc, descriptor, item, entry⟩ type 0 ∧
      OpenedOn volume kernel.drive next entry raw type := by
  have extended := ran.path.extended.toGrown
  obtain ⟨trail, raw, resolves, item', opens, itemOf⟩ := fat16Open_resolves extended.invariant
    (mounted.grown extended) (bounded.grown extended)
    ((extended.keeps mounted.held).obj buffer rfl) ran.path.live ran.opening ran.succeeds
  rw [extended.drive] at resolves itemOf
  rw [ran.opened.opened.opens] at opens
  cases opens
  have notNull := ran.opened.opened.notNull
  have itemMade := ran.opened.opened.made
  have old : ∀ ptr value, next.objs ptr = some (.fatDirectory value) →
      made.objs ptr = some (.fatDirectory value) := by
    intro ptr value there
    rw [ran.final] at there
    by_cases same : ptr = desc
    · have here : (allocated.setDescriptor desc (.opened index descriptor)
          (kernel.fileDescriptors.set index desc)).objs desc = _ := Kernel.setObj_objs_self ..
      rw [same, here] at there
      cases there
    · exact ran.placed.old ptr _ same ((Kernel.setObj_objs_of_ne _ _ same).symm.trans there)
  obtain ⟨entry, type, present, openedOn⟩ := itemOf.openedOn itemMade notNull
    (fun ptr own => ran.kept ptr (ran.opened.within ptr own)) old
  refine ⟨trail, raw, entry, type, resolves, ⟨Nat.succ_pos _, ?_, ?_, ran.placed.notNull, ?_, ?_,
    present, ?_⟩, openedOn⟩
  · exact size ▸ (List.getElem?_eq_some_iff.mp ran.slot.free).1
  · rw [ran.final]
    exact List.getElem?_set_self (List.getElem?_eq_some_iff.mp ran.slot.free).1
  · rw [ran.final]
    exact Kernel.setObj_objs_self ..
  · exact (ran.kept _ ran.opened.own).trans ran.opened.opened.opens
  · rw [ran.final]
    exact (Kernel.setObj_objs_of_ne _ _ ran.placed.notNull.symm).trans ran.placed.invariant.null

end Opened

end Peachos
