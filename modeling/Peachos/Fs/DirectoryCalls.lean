import Peachos.Fs.Open

/-! # Calls on a directory

`fopen` opens directories as well as files: what it has opened is an item with a tagged union, and
each operation of the filesystem has to test the tag. `fat16_stat` and `fat16_seek` do,
`fat16_read` does not: it takes the directory for the directory entry of a file
(`directoryRefused_iff`).
-/

namespace Peachos

open CInt

/-- The calls on an open file. -/
inductive FileCall where
  | fread (buf size nmemb : Nat)
  | fseek (offset : Int) (whence : Nat)
  | fstat (stat : FileStat)

namespace FileCall

/-- The result of a call, and what it leaves in `stat`. -/
def perform (fd : Int) : FileCall → K (Int × Option FileStat)
  | .fread buf size nmemb => do
      let res ← Peachos.fread diskstreamerRead buf size nmemb fd
      pure (res, none)
  | .fseek offset whence => do
      let res ← Peachos.fseek fd offset whence
      pure (res, none)
  | .fstat stat => do
      let (res, stat) ← Peachos.fstat fd stat
      pure (res, some stat)

/-- The contents of `stat` before the call. -/
def stat : FileCall → Option FileStat
  | .fstat stat => some stat
  | _ => none

def IsRead : FileCall → Prop
  | .fread .. => True
  | _ => False

/-- A read is of some bytes. -/
def AsksBytes : FileCall → Prop
  | .fread _ size nmemb => size ≠ 0 ∧ nmemb ≠ 0
  | _ => True

end FileCall

/-- The kernel with another pointer in the union of the item. -/
def setUnion (ptrs : FilePointers) (pointer : Nat) (kernel : Kernel) : Kernel :=
  kernel.setObj ptrs.item
    (some (.fatItem { pointer := pointer, type := fatItemTypeDirectory }))

/-- The call returns a negative code and changes nothing, the buffer and the position included,
whatever the union of the item holds. -/
def Refused (kernel : Kernel) (fd : Nat) (ptrs : FilePointers) (call : FileCall) : Prop :=
  ∃ code < 0, ∀ pointer, (call.perform fd).run (setUnion ptrs pointer kernel) =
    .ok ((code, call.stat), setUnion ptrs pointer kernel)

section Calls

variable {kernel : Kernel} {fd : Nat} {ptrs : FilePointers} {type pos : Nat}

theorem OpenItem.setUnion (opened : OpenItem kernel fd ptrs type pos) (pointer : Nat) :
    OpenItem (setUnion ptrs pointer kernel) fd { ptrs with entry := pointer } fatItemTypeDirectory
      pos where
  positive := opened.positive
  inTable := opened.inTable
  slot := opened.slot
  descNotNull := opened.descNotNull
  desc := (Kernel.setObj_objs_of_ne _ _ (Kernel.ne_of_objs opened.desc opened.item nofun)).trans
    opened.desc
  descriptor := (Kernel.setObj_objs_of_ne _ _
    (Kernel.ne_of_objs opened.descriptor opened.item nofun)).trans opened.descriptor
  item := Kernel.setObj_objs_self ..
  null := by
    refine (Kernel.setObj_objs_of_ne _ _ fun same => ?_).trans opened.null
    have item := opened.item
    rw [← same, opened.null] at item
    cases item

/-- The descriptor table does not give out its last descriptor. -/
theorem OpenItem.getDescriptor (opened : OpenItem kernel fd ptrs type pos) :
    (fileGetDescriptor fd).run kernel =
      .ok (if fd = peachosMaxFileDescriptors then 0 else ptrs.desc, kernel) := by
  obtain ⟨index, rfl⟩ : ∃ index, fd = index + 1 :=
    ⟨fd - 1, (Nat.sub_add_cancel opened.positive).symm⟩
  by_cases last : index + 1 = peachosMaxFileDescriptors
  · rw [if_pos last, fileGetDescriptor_beyond (by omega)]
  · rw [if_neg last]
    exact fileGetDescriptor_slot (lt_of_le_of_ne opened.inTable last) opened.slot

theorem OpenItem.load_desc (opened : OpenItem kernel fd ptrs type pos) :
    (load Obj.fileDescriptor? ptrs.desc).run kernel = .ok ({
      index := fd
      filesystem := some .fat16
      privateData := ptrs.descriptor
      disk := .disk }, kernel) :=
  load_of_obj opened.desc rfl

theorem OpenItem.load_descriptor (opened : OpenItem kernel fd ptrs type pos) :
    (load Obj.fatFileDescriptor? ptrs.descriptor).run kernel =
      .ok ({ item := ptrs.item, pos := pos }, kernel) :=
  load_of_obj opened.descriptor rfl

theorem OpenItem.load_item (opened : OpenItem kernel fd ptrs type pos) :
    (load Obj.fatItem? ptrs.item).run kernel =
      .ok ({ pointer := ptrs.entry, type := type }, kernel) :=
  load_of_obj opened.item rfl

/-- A call finds the descriptor of the file in the table, unless it is the last one. -/
theorem OpenItem.call {α : Type} (opened : OpenItem kernel fd ptrs type pos) (closed : K α)
    (next : FileDescriptor → K α) : (do
      let desc ← fileGetDescriptor fd
      if desc = 0 then closed
      else do
        let value ← load Obj.fileDescriptor? desc
        next value : K α).run kernel =
      (if fd = peachosMaxFileDescriptors then closed else next {
        index := fd
        filesystem := some .fat16
        privateData := ptrs.descriptor
        disk := .disk }).run kernel := by
  rw [Exec.bind_of_ok opened.getDescriptor]
  by_cases last : fd = peachosMaxFileDescriptors
  · rw [if_pos last, if_pos rfl, if_pos last]
  · rw [if_neg last, if_neg opened.descNotNull, if_neg last, Exec.bind_of_ok opened.load_desc]

/-- `fseek` tests the tag. -/
theorem fseek_directory (opened : OpenItem kernel fd ptrs fatItemTypeDirectory pos) (offset : Int)
    (whence : Nat) : (fseek fd offset whence).run kernel =
      .ok (if fd = peachosMaxFileDescriptors then -eio else -einvagr, kernel) := by
  refine (opened.call _ _).trans ?_
  by_cases last : fd = peachosMaxFileDescriptors
  · rw [if_pos last, if_pos last, Exec.run_pure]
  · rw [if_neg last, if_neg last, Exec.bind_of_ok (theFilesystem_run _)]
    dsimp only
    rw [fat16Seek, Exec.bind_of_ok opened.load_descriptor, Exec.bind_of_ok opened.load_item,
      if_pos (show fatItemTypeDirectory ≠ fatItemTypeFile by decide), Exec.run_pure]

/-- `fstat` tests the tag. -/
theorem fstat_directory (opened : OpenItem kernel fd ptrs fatItemTypeDirectory pos)
    (stat : FileStat) : (fstat fd stat).run kernel =
      .ok ((if fd = peachosMaxFileDescriptors then -eio else -einvagr, stat), kernel) := by
  refine (opened.call _ _).trans ?_
  by_cases last : fd = peachosMaxFileDescriptors
  · rw [if_pos last, if_pos last, Exec.run_pure]
  · rw [if_neg last, if_neg last, Exec.bind_of_ok (theFilesystem_run _)]
    dsimp only
    rw [fat16Stat, Exec.bind_of_ok opened.load_descriptor, Exec.bind_of_ok opened.load_item,
      if_pos (show fatItemTypeDirectory ≠ fatItemTypeFile by decide), Exec.run_pure]

/-- `fread` tests no tag: it reads a directory entry through the union, of whatever type. -/
theorem fread_followsUnion (opened : OpenItem kernel fd ptrs type pos)
    (given : fd ≠ peachosMaxFileDescriptors) {size nmemb : Nat} (positive : size ≠ 0)
    (several : nmemb ≠ 0) (other : ∀ raw, kernel.objs ptrs.entry ≠ some (.bytes raw)) (buf : Nat) :
    (fread diskstreamerRead buf size nmemb fd).run kernel = .error (.badPointer ptrs.entry) := by
  have open' := opened.positive
  have followed : (load Obj.bytes? ptrs.entry).run kernel = .error (.badPointer ptrs.entry) := by
    have untyped : (kernel.objs ptrs.entry).bind Obj.bytes? = none := by
      cases present : kernel.objs ptrs.entry with
      | none => rfl
      | some contents =>
          cases contents with
          | bytes raw => exact absurd present (other raw)
          | _ => rfl
    simp [load, Exec.demand, untyped]
  obtain ⟨count, rfl⟩ := Nat.exists_eq_succ_of_ne_zero several
  rw [fread, if_neg (by omega)]
  refine (opened.call _ _).trans ?_
  rw [if_neg given, Exec.bind_of_ok (theFilesystem_run _)]
  dsimp only
  rw [theDisk, if_pos rfl, Exec.bind_of_ok (Exec.run_pure _ _), fat16Read,
    Exec.bind_of_ok opened.load_descriptor, Exec.bind_of_ok opened.load_item]
  exact Exec.bind_of_error (Exec.bind_of_error followed)

/-- **Calls on a directory.** For every descriptor of a directory and every call that asks for
something: it is refused without a look at the union, if and only if it is no read or the
descriptor is the last one, which the table does not give out. -/
theorem directoryRefused_iff (opened : OpenItem kernel fd ptrs fatItemTypeDirectory pos)
    {call : FileCall} (asks : call.AsksBytes) :
    Refused kernel fd ptrs call ↔ ¬ call.IsRead ∨ fd = peachosMaxFileDescriptors := by
  have negative : (if fd = peachosMaxFileDescriptors then -eio else -einvagr) < 0 := by
    split <;> decide
  cases call with
  | fseek offset whence =>
      refine iff_of_true ⟨_, negative, fun pointer => ?_⟩ (.inl id)
      rw [FileCall.perform, Exec.bind_of_ok (fseek_directory (opened.setUnion pointer) _ _)]
      rfl
  | fstat stat =>
      refine iff_of_true ⟨_, negative, fun pointer => ?_⟩ (.inl id)
      rw [FileCall.perform, Exec.bind_of_ok (fstat_directory (opened.setUnion pointer) _)]
      rfl
  | fread buf size nmemb =>
      obtain ⟨positive, several⟩ := asks
      have open' := opened.positive
      constructor
      · rintro ⟨code, _, returns⟩
        refine .inr (by_contra fun given => ?_)
        have opened' := opened.setUnion 0
        have followed := fread_followsUnion opened' given positive several
          (fun raw present => nomatch opened'.null.symm.trans present) buf
        have returned := returns 0
        rw [FileCall.perform, Exec.bind_of_error followed] at returned
        cases returned
      · rintro (other | last)
        · exact absurd trivial other
        · refine ⟨-einvagr, by decide, fun pointer => ?_⟩
          have got := (opened.setUnion pointer).getDescriptor
          rw [if_pos last] at got
          rw [FileCall.perform, Peachos.fread, if_neg (by omega), Exec.bind_assoc,
            Exec.bind_of_ok got, if_pos rfl]
          rfl

end Calls

/-- The parts of a program whose result is known. -/
theorem result_of_bind {α β : Type} {program : K α} {rest : α → K β} {kernel : Kernel} {value : β}
    (result : ((program >>= rest).run kernel).map Prod.fst = .ok value) :
    ∃ found middle, program.run kernel = .ok (found, middle) ∧
      ((rest found).run middle).map Prod.fst = .ok value := by
  cases run : program.run kernel with
  | error fault =>
      rw [Exec.bind_of_error run] at result
      cases result
  | ok pair => exact ⟨pair.1, pair.2, rfl, by rwa [Exec.bind_of_ok run] at result⟩

/-- A heap of 32 blocks. -/
def smallHeapRegion : KernelRegion where
  start := 0x02000000
  bytes := 131072
  startAligned := by decide
  bytesAligned := by decide
  below2GiB := by decide
  addressable := by decide
  notNull := by decide
  positive := by decide

/-- The kernel after `kheap_init` with that heap, and a disk with a root directory for two entries:
it has one, of the directory `A` at cluster 2, which has the entry `B`. -/
def directoryKernel : Kernel :=
  { freshKernel smallHeapRegion with
    drive := imageOf [(13, 1), (14, 1), (16, 1), (17, 2), (22, 1), (38, 0x29), (1024, 65),
      (1035, 0x10), (1050, 2), (1536, 66)] }

/-- The type of the item behind a file number. -/
def openType (fd : Int) : K Nat := do
  let desc ← fileGetDescriptor fd
  let value ← load Obj.fileDescriptor? desc
  let descriptor ← load Obj.fatFileDescriptor? value.privateData
  let item ← load Obj.fatItem? descriptor.item
  pure item.type

theorem openType_run {kernel : Kernel} {fd : Nat} {ptrs : FilePointers} {type pos : Nat}
    (opened : OpenItem kernel fd ptrs type pos) (given : fd ≠ peachosMaxFileDescriptors) :
    (openType fd).run kernel = .ok (type, kernel) := by
  rw [openType, Exec.bind_of_ok opened.getDescriptor, if_neg given,
    Exec.bind_of_ok opened.load_desc, Exec.bind_of_ok opened.load_descriptor,
    Exec.bind_of_ok opened.load_item, Exec.run_pure]

/-- Mounting that disk and opening `0:/A`. -/
def openDirectory : K (Int × Nat) := do
  let _ ← fat16Resolve diskstreamerRead
  let fd ← fopen diskstreamerRead [48, 58, 47, 65] [114]
  let type ← openType fd
  pure (fd, type)

theorem openDirectory_run : (openDirectory.run directoryKernel).map Prod.fst =
    .ok (1, fatItemTypeDirectory) := by
  decide +kernel

/-- `fopen` opens the directory. -/
theorem directoryKernel_opened : ∃ start kernel ptrs,
    (fopen diskstreamerRead [48, 58, 47, 65] [114]).run start = .ok (1, kernel) ∧
      OpenItem kernel 1 ptrs fatItemTypeDirectory 0 ∧
      ∀ raw, kernel.objs ptrs.entry ≠ some (.bytes raw) := by
  obtain ⟨live, start, volume, mount, ready, _⟩ := @fat16Resolve_run smallHeapRegion []
    directoryKernel 0 32 ((freshKernel_invariant smallHeapRegion).of_same rfl rfl)
    ⟨by decide, by decide⟩ rfl rfl (by decide) [65 :: List.replicate 10 0 ++ [0x10] ++
      List.replicate 14 0 ++ [2] ++ List.replicate 5 0] ⟨by decide, by decide, by decide⟩ (by decide)
  obtain ⟨_, _, mounted, evaluated⟩ := result_of_bind openDirectory_run
  rw [mount] at mounted
  cases mounted
  obtain ⟨fd, kernel, opening, evaluated⟩ := result_of_bind evaluated
  obtain ⟨type, last, typing, evaluated⟩ := result_of_bind evaluated
  cases evaluated
  obtain ⟨fd, same, ptrs, type, opened, tagged⟩ := fopen_opened diskstreamerRead_readsStreams
    ready.invariant ⟨ready.mounted, ⟨_, ready.buffer⟩, ready.held⟩ opening (by decide)
  obtain rfl : fd = 1 := by omega
  have typed := (openType_run opened (by decide)).symm.trans typing
  cases typed
  refine ⟨start, kernel, ptrs, opening, opened, ?_⟩
  rcases tagged with file | ⟨_, other⟩
  · cases file
  · exact other

/-- A seek in the directory is refused. -/
theorem directoryRefused_seek : ∃ kernel ptrs, OpenItem kernel 1 ptrs fatItemTypeDirectory 0 ∧
    Refused kernel 1 ptrs (.fseek 0 seekSet) := by
  obtain ⟨_, kernel, ptrs, _, opened, _⟩ := directoryKernel_opened
  exact ⟨kernel, ptrs, opened,
    (@directoryRefused_iff kernel 1 ptrs 0 opened (.fseek 0 seekSet) trivial).mpr (.inl id)⟩

/-- A read of one byte of the directory is not refused: it goes to the directory as if it were the
directory entry of a file. -/
theorem fread_directory : ∃ start kernel ptrs,
    (fopen diskstreamerRead [48, 58, 47, 65] [114]).run start = .ok (1, kernel) ∧
      OpenItem kernel 1 ptrs fatItemTypeDirectory 0 ∧ ∀ buf,
        (fread diskstreamerRead buf 1 1 1).run kernel = .error (.badPointer ptrs.entry) ∧
          ¬ Refused kernel 1 ptrs (.fread buf 1 1) := by
  obtain ⟨start, kernel, ptrs, opening, opened, other⟩ := directoryKernel_opened
  refine ⟨start, kernel, ptrs, opening, opened, fun buf => ?_⟩
  have followed := fread_followsUnion opened (by decide) one_ne_zero one_ne_zero other buf
  refine ⟨followed, fun ⟨code, _, returns⟩ => ?_⟩
  have returned := returns ptrs.entry
  rw [setUnion, Kernel.setObj_eq_self opened.item, FileCall.perform,
    Exec.bind_of_error followed] at returned
  cases returned

end Peachos
