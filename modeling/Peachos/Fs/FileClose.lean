import Peachos.Fs.FileTable

/-! # Closing a file

`fat16_close` frees what an item leads to, the item and the descriptor. For an open file these are
blocks of its own, so that `fclose` leaves the other files alone (`fclose_keeps`).
-/

namespace Peachos

open CInt

/-- What an item leads to, as it was made: the blocks in `inner` are its own. -/
inductive ItemLoaded (live : List Allocation) (kernel : Kernel) (entry : Nat) :
    (type : Nat) → (inner : Nat → Prop) → Prop
  | file {raw : List UInt8} {inner : Nat → Prop} (copy : kernel.objs entry = some (.bytes raw))
      (owns : ∀ ptr, inner ptr ↔ ptr = entry) : ItemLoaded live kernel entry fatItemTypeFile inner
  | directory {value : FatDirectory} {contents : List UInt8} {inner : Nat → Prop}
      (loaded : DirectoryLoaded live kernel entry value contents inner) :
      ItemLoaded live kernel entry fatItemTypeDirectory inner

section Close

variable {region : KernelRegion} {live live' : List Allocation} {start kernel : Kernel}
  {owned inner : Nat → Prop} {descriptor item entry type pos : Nat}

/-- The item is freed with what it leads to; an object of another kind stays. -/
theorem fat16FatItemFree_loaded (grown : Grown region live live' start kernel owned)
    (present : kernel.objs item = some (.fatItem { pointer := entry, type := type }))
    (loaded : ItemLoaded live' kernel entry type inner)
    (apart : ∀ allocation ∈ live, allocation.ptr ≠ item ∧ ¬ inner allocation.ptr) :
    ∃ live'' last, (fat16FatItemFree item).run kernel = .ok ((), last) ∧
      Grown region live live'' start last (fun ptr => owned ptr ∧ ¬ (ptr = item ∨ inner ptr)) ∧
      ∀ ptr contents, kernel.objs ptr = some contents → contents.bytes? = none →
        contents.fatItem? = none → contents.fatDirectory? = none →
          last.objs ptr = some contents := by
  cases loaded with
  | file copy owns =>
      obtain ⟨live'', last, run, grown', kept⟩ := fat16FatItemFree_file grown present copy
        fun allocation member => ⟨(apart allocation member).1,
          fun same => (apart allocation member).2 ((owns _).mpr same)⟩
      refine ⟨live'', last, run, grown'.congr fun ptr => by rw [owns], ?_⟩
      intro ptr contents here notBytes notItem _
      refine (kept ptr (Kernel.ne_of_objs here present ?_) (Kernel.ne_of_objs here copy ?_)).trans
        here
      · rintro rfl
        cases notItem
      · rintro rfl
        cases notBytes
  | directory loaded =>
      obtain ⟨live'', last, run, grown', kept⟩ := fat16FatItemFree_directory grown present loaded
        apart
      refine ⟨live'', last, run, grown', ?_⟩
      intro ptr contents here notBytes notItem notDirectory
      refine (kept ptr (Kernel.ne_of_objs here present ?_)
        (Kernel.ne_of_objs here loaded.present ?_)
        (Kernel.ne_of_objs here loaded.buffer ?_)).trans here
      · rintro rfl
        cases notItem
      · rintro rfl
        cases notDirectory
      · rintro rfl
        cases notBytes

/-- **`fat16_close`.** The descriptor is freed after its item; the descriptors of the table stay. -/
theorem fat16Close_run (grown : Grown region live live' start kernel owned)
    (opens : kernel.objs descriptor = some (.fatFileDescriptor { item := item, pos := pos }))
    (present : kernel.objs item = some (.fatItem { pointer := entry, type := type }))
    (loaded : ItemLoaded live' kernel entry type inner)
    (apart : ∀ allocation ∈ live, allocation.ptr ≠ descriptor ∧ allocation.ptr ≠ item ∧
      ¬ inner allocation.ptr) :
    ∃ live'' last, (fat16Close descriptor).run kernel = .ok (0, last) ∧
      Grown region live live'' start last
        (fun ptr => owned ptr ∧ ¬ (ptr = descriptor ∨ ptr = item ∨ inner ptr)) ∧
      ∀ ptr value, kernel.objs ptr = some (.fileDescriptor value) →
        last.objs ptr = some (.fileDescriptor value) := by
  obtain ⟨live₁, middle, freed, grown₁, kept⟩ := fat16FatItemFree_loaded grown present loaded
    fun allocation member => (apart allocation member).2
  have opens' := kept descriptor _ opens rfl rfl rfl
  obtain ⟨live₂, last, freed', grown₂, _, kept'⟩ := grown₁.free
    (fun allocation member => (apart allocation member).1) (by rw [opens']; rfl)
  have opened : (load Obj.fatFileDescriptor? descriptor).run kernel = .ok (_, kernel) :=
    load_of_obj opens rfl
  refine ⟨live₂, last, ?_, grown₂.congr fun ptr => by tauto, fun ptr value here => ?_⟩
  · rw [fat16Close, fat16FreeFileDescriptor, Exec.bind_assoc, Exec.bind_of_ok opened,
      Exec.bind_assoc, Exec.bind_of_ok freed, Exec.bind_of_ok freed', Exec.run_pure]
  · exact (kept' ptr (Kernel.ne_of_objs here opens nofun)).trans (kept ptr _ here rfl rfl rfl)

end Close

/-- `fd` is the number of a directory that has no entries. -/
def ClosesEmpty (kernel : Kernel) (fd : Int) : Prop :=
  fd < peachosMaxFileDescriptors ∧ ∃ view directory, fileView kernel (fd - 1).toNat = some view ∧
    view.content = some (.fatDirectory directory) ∧ directory.total = 0

/-- `kfree` leaves the table alone. -/
theorem kfree_table {kernel next : Kernel} {ptr : Nat}
    (run : (kfree ptr).run kernel = .ok ((), next)) (table : List Nat) :
    (kfree ptr).run { kernel with fileDescriptors := table } =
      .ok ((), { next with fileDescriptors := table }) := by
  have live := kfree_eq_ok run
  rw [kfree, Exec.bind_of_ok (Exec.run_read _ _), if_pos live] at run
  obtain ⟨_, middle, freed, cleared⟩ := Exec.bind_eq_ok.mp run
  obtain ⟨heap, done, rfl⟩ := Exec.zoom_eq_ok.mp freed
  cases cleared
  have freed' : (onHeap (heapFree ptr)).run { kernel with fileDescriptors := table } =
      .ok ((), { kernel with heap := heap, fileDescriptors := table }) := Exec.zoom_of_ok done
  rw [kfree, Exec.bind_of_ok (Exec.run_read _ _), if_pos live, Exec.bind_of_ok freed',
    Exec.run_update]
  rfl

section Calls

variable {region : KernelRegion} {live live' : List Allocation} {kernel next : Kernel}
  {volume : FatPrivate} {record : FileRecord} {records rest : List FileRecord}

/-- The blocks of one file, as what was allocated beside the others. -/
theorem Grown.beside (inv : KernelInvariant region live kernel) {blocks : List Nat}
    (held : ∀ ptr ∈ blocks, ∃ allocation ∈ live, allocation.ptr = ptr) :
    Grown region (live.filter fun allocation => allocation.ptr ∉ blocks) live kernel kernel
      (· ∈ blocks) where
  invariant := inv
  grown := List.filter_subset_self _
  fresh := fun allocation member => of_decide_eq_true (List.mem_filter.mp member).2
  held := held
  only := by
    intro allocation member
    by_cases mine : allocation.ptr ∈ blocks
    · exact .inr mine
    · exact .inl (List.mem_filter.mpr ⟨member, decide_eq_true mine⟩)
  kept := fun _ _ => .refl _ _
  globals := rfl

/-- A directory with entries, and a file, are as they were made. -/
theorem ItemContent.loaded {entry type : Nat} {buffer : List Nat}
    (content : ItemContent kernel entry type buffer)
    (nonempty : ∀ directory, kernel.objs entry = some (.fatDirectory directory) →
      directory.total ≠ 0) : ItemLoaded live kernel entry type (· ∈ entry :: buffer) := by
  cases content with
  | file copy => exact .file copy fun ptr => List.mem_singleton
  | empty present unused => exact absurd unused (nonempty _ present)
  | directory present filled total length buffer =>
      refine .directory ⟨present, ⟨_, total, length⟩, buffer, fun _ ptr => ?_,
        fun none => absurd none filled⟩
      rw [List.mem_cons, List.mem_singleton]

/-- The slot of a descriptor is cleared, and the descriptor freed. -/
theorem fileFreeDescriptor_run {index desc : Nat} {value : FileDescriptor}
    (present : kernel.objs desc = some (.fileDescriptor value))
    (numbered : value.index = (index + 1 : Nat)) (inside : index < kernel.fileDescriptors.length)
    (freed : (kfree desc).run kernel = .ok ((), next)) :
    (fileFreeDescriptor desc).run kernel =
      .ok ((), { next with fileDescriptors := kernel.fileDescriptors.set index 0 }) := by
  have loaded : (load Obj.fileDescriptor? desc).run kernel = .ok (value, kernel) :=
    load_of_obj present rfl
  have written : (writeFileDescriptors (value.index - 1) 0).run kernel =
      .ok ((), { kernel with fileDescriptors := kernel.fileDescriptors.set index 0 }) := by
    have here : value.index - 1 = (index : Int) := by omega
    rw [writeFileDescriptors, Exec.run_of, here, Int.toNat_natCast,
      if_pos ⟨Int.natCast_nonneg _, inside⟩]
  rw [fileFreeDescriptor, Exec.bind_of_ok loaded, Exec.bind_of_ok written, kfree_table freed]

/-- **`fclose` of an open file.** Its blocks are given back and its slot is cleared. -/
theorem fclose_open (table : FileTable region live volume kernel (record :: rest))
    (given : record.index + 1 < peachosMaxFileDescriptors)
    (nonempty : ¬ ClosesEmpty kernel (record.index + 1 : Nat)) :
    ∃ live' next, (fclose (record.index + 1 : Nat)).run kernel = .ok (0, next) ∧
      FileTable region live' volume next rest ∧ KeepsFiles kernel next (· = record.index) := by
  have first : record ∈ record :: rest := List.mem_cons_self
  have holds := table.holds record first
  have notNull := table.notNull first
  have index : (((record.index + 1 : Nat) : Int) - 1).toNat = record.index := by omega
  have got := fileGetDescriptor_slot given (table.slot first)
  have loaded : (load Obj.fileDescriptor? record.ptrs.desc).run kernel = .ok (_, kernel) :=
    load_of_obj holds.desc rfl
  have beside := Grown.beside table.invariant (table.owned.held record first)
  have content : ItemLoaded live kernel record.ptrs.entry record.type
      (· ∈ record.ptrs.entry :: record.buffer) := by
    refine holds.content.loaded fun directory present unused => nonempty ⟨by exact_mod_cast given,
      _, directory, (congrArg (fileView kernel) index).trans (holds.view (table.slot first)),
      present, unused⟩
  obtain ⟨live₁, closed, close, grown₁, kept⟩ := fat16Close_run beside holds.descriptor holds.item
    content fun allocation member => by
      have other := beside.fresh allocation member
      simp only [FileRecord.blocks, List.mem_cons, not_or] at other ⊢
      exact ⟨other.2.1, other.2.2.1, other.2.2.2⟩
  have present := kept _ _ holds.desc
  obtain ⟨live₂, last, freed, grown₂, _, _⟩ := grown₁.free
    (fun allocation member same => beside.fresh allocation member (same ▸ List.mem_cons_self))
    (by rw [present]; rfl)
  have same : closed.fileDescriptors = kernel.fileDescriptors := by rw [grown₁.globals]
  have inside := table.index_lt first
  have cleared := fileFreeDescriptor_run present rfl
    (by rw [same, table.size]; exact inside) freed
  rw [same] at cleared
  have held := table.without
  refine ⟨live₂, { last with fileDescriptors := kernel.fileDescriptors.set record.index 0 }, ?_,
    ⟨(held.grown grown₂).of_same rfl rfl, grown₂.invariant.of_same rfl rfl, ?_,
    table.slots_without⟩, table.keepsFiles held (fun other member untouched => ?_) grown₂ rfl
    fun index untouched => List.getElem?_set_ne (Ne.symm untouched)⟩
  · rw [fclose, Exec.bind_of_ok got, if_neg notNull, Exec.bind_of_ok loaded,
      Exec.bind_of_ok (theFilesystem_run _)]
    dsimp only
    rw [Exec.bind_of_ok close, if_pos rfl, Exec.bind_of_ok cleared, Exec.run_pure]
  · exact (List.length_set ..).trans table.size
  · exact (List.mem_cons.mp member).resolve_left fun here => untouched (by rw [here])

/-- `fclose` of a number with no open file changes nothing. -/
theorem fclose_refused {fd : Int} (none : (fileGetDescriptor fd).run kernel = .ok (0, kernel)) :
    (fclose fd).run kernel = .ok (-eio, kernel) := by
  rw [fclose, Exec.bind_of_ok none, if_pos rfl, Exec.run_pure]

/-- **`fclose`.** The files with other numbers are as they were. -/
theorem fclose_keeps (table : FileTable region live volume kernel records) {fd : Int}
    (positive : 1 ≤ fd) (nonempty : ¬ ClosesEmpty kernel fd) :
    ∃ res live' next left, (fclose fd).run kernel = .ok (res, next) ∧
      FileTable region live' volume next left ∧
      KeepsFiles kernel next fun index => ((index + 1 : Nat) : Int) = fd := by
  by_cases inside : fd < peachosMaxFileDescriptors
  swap
  · exact ⟨_, live, kernel, records, fclose_refused (fileGetDescriptor_beyond (not_lt.mp inside)),
      table, fun _ _ _ _ here => ⟨here, rfl⟩⟩
  obtain ⟨index, rfl⟩ : ∃ index : Nat, fd = (index + 1 : Nat) := ⟨(fd - 1).toNat, by omega⟩
  have given : index + 1 < peachosMaxFileDescriptors := by exact_mod_cast inside
  obtain ⟨desc, here⟩ : ∃ desc, kernel.fileDescriptors[index]? = some desc :=
    ⟨_, List.getElem?_eq_getElem (by rw [table.size]; omega)⟩
  by_cases null : desc = 0
  · rw [null] at here
    exact ⟨_, live, kernel, records, fclose_refused (fileGetDescriptor_slot given here), table,
      fun _ _ _ _ here => ⟨here, rfl⟩⟩
  obtain ⟨record, member, rfl, rfl⟩ := (table.slots index desc null).mp here
  obtain ⟨before, after, rfl⟩ := List.append_of_mem member
  obtain ⟨live', next, run, closed, keeps⟩ :=
    fclose_open (table.perm List.perm_middle) given nonempty
  exact ⟨0, live', next, _, run, closed, fun other desc untouched => keeps other desc fun same =>
    untouched (by rw [same])⟩

end Calls

end Peachos
