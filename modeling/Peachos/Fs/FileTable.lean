import Peachos.Fs.Open

/-! # The table of open files

Each slot of the table that is not null leads to the blocks of one open file, and no two files share
a block with each other or with the volume. Blocks that are allocated elsewhere leave the files as
they are (`FilesHeld.grown`), and closing a file gives back its blocks and no others.
-/

namespace Peachos

open CInt

/-- What an open file is: its descriptors, its item and what that leads to. -/
structure FileView where
  descriptor : FileDescriptor
  privateData : FatFileDescriptor
  item : FatItem
  content : Option Obj
  entries : Option Obj

/-- The entries of a directory that has some. -/
def directoryEntries (kernel : Kernel) : Option Obj → Option Obj
  | some (.fatDirectory directory) =>
      if directory.total = 0 then none else kernel.objs directory.item
  | _ => none

/-- What is open at `file_descriptors[index]`. -/
def fileView (kernel : Kernel) (index : Nat) : Option FileView := do
  let slot ← kernel.fileDescriptors[index]?
  let descriptor ← (kernel.objs slot).bind Obj.fileDescriptor?
  let privateData ← (kernel.objs descriptor.privateData).bind Obj.fatFileDescriptor?
  let item ← (kernel.objs privateData.item).bind Obj.fatItem?
  some {
    descriptor := descriptor
    privateData := privateData
    item := item
    content := kernel.objs item.pointer
    entries := directoryEntries kernel (kernel.objs item.pointer) }

/-- An open file and its blocks; `buffer` is the one of the entries of a directory. -/
structure FileRecord where
  index : Nat
  ptrs : FilePointers
  pos : Nat
  type : Nat
  buffer : List Nat

/-- The blocks of an open file. -/
def FileRecord.blocks (record : FileRecord) : List Nat :=
  record.ptrs.desc :: record.ptrs.descriptor :: record.ptrs.item :: record.ptrs.entry ::
    record.buffer

/-- What the item of an open file leads to: the copy of a directory entry, or a directory. Without
entries a directory has no block for them. -/
inductive ItemContent (kernel : Kernel) (entry : Nat) : (type : Nat) → (buffer : List Nat) → Prop
  | file {raw : List UInt8} (copy : kernel.objs entry = some (.bytes raw)) :
      ItemContent kernel entry fatItemTypeFile []
  | empty {value : FatDirectory} (present : kernel.objs entry = some (.fatDirectory value))
      (unused : value.total = 0) : ItemContent kernel entry fatItemTypeDirectory []
  | directory {value : FatDirectory} {contents : List UInt8} {count : Nat}
      (present : kernel.objs entry = some (.fatDirectory value)) (filled : contents ≠ [])
      (total : value.total = count) (length : contents.length = sizeofFatDirectoryItem * count)
      (buffer : kernel.objs value.item = some (.bytes contents)) :
      ItemContent kernel entry fatItemTypeDirectory [value.item]

/-- The blocks of the file hold what they are for. -/
structure FileRecord.Holds (record : FileRecord) (kernel : Kernel) : Prop where
  desc : kernel.objs record.ptrs.desc = some (.fileDescriptor {
    index := (record.index + 1 : Nat)
    filesystem := some .fat16
    privateData := record.ptrs.descriptor
    disk := .disk })
  descriptor : kernel.objs record.ptrs.descriptor =
    some (.fatFileDescriptor { item := record.ptrs.item, pos := record.pos })
  item : kernel.objs record.ptrs.item =
    some (.fatItem { pointer := record.ptrs.entry, type := record.type })
  content : ItemContent kernel record.ptrs.entry record.type record.buffer

section Records

variable {kernel next : Kernel} {record : FileRecord} {entry type : Nat} {buffer : List Nat}

/-- The content stays while its blocks do. -/
theorem ItemContent.congr (content : ItemContent kernel entry type buffer)
    (same : next.objs entry = kernel.objs entry)
    (same' : ∀ ptr ∈ buffer, next.objs ptr = kernel.objs ptr) :
    ItemContent next entry type buffer ∧
      directoryEntries next (next.objs entry) = directoryEntries kernel (kernel.objs entry) := by
  cases content with
  | file copy => exact ⟨.file (same.trans copy), by rw [same, copy]; rfl⟩
  | empty present unused =>
      refine ⟨.empty (same.trans present) unused, ?_⟩
      rw [same, present, directoryEntries, directoryEntries, if_pos unused, if_pos unused]
  | directory present filled total length buffer =>
      have kept := same' _ (List.mem_singleton_self _)
      refine ⟨.directory (same.trans present) filled total length (kept.trans buffer), ?_⟩
      rw [same, present, directoryEntries, directoryEntries, kept]

/-- The blocks of the content hold no streams. -/
theorem ItemContent.notStream (content : ItemContent kernel entry type buffer) :
    ∀ ptr ∈ entry :: buffer, ∃ contents, kernel.objs ptr = some contents ∧
      contents.diskStream? = none := by
  intro ptr member
  cases content with
  | file copy => exact ⟨_, List.mem_singleton.mp member ▸ copy, rfl⟩
  | empty present _ => exact ⟨_, List.mem_singleton.mp member ▸ present, rfl⟩
  | directory present _ _ _ buffer =>
      rcases List.mem_cons.mp member with rfl | member
      · exact ⟨_, present, rfl⟩
      · exact ⟨_, List.mem_singleton.mp member ▸ buffer, rfl⟩

/-- None of the blocks is a stream, so they stay where only streams move. -/
theorem FileRecord.Holds.same (holds : record.Holds kernel)
    (keeps : ∀ ptr ∈ record.blocks, kernel.Keeps next ptr) :
    ∀ ptr ∈ record.blocks, next.objs ptr = kernel.objs ptr := by
  intro ptr member
  obtain ⟨contents, present, other⟩ : ∃ contents, kernel.objs ptr = some contents ∧
      contents.diskStream? = none := by
    have cases := member
    unfold blocks at cases
    rcases List.mem_cons.mp cases with rfl | cases
    · exact ⟨_, holds.desc, rfl⟩
    rcases List.mem_cons.mp cases with rfl | cases
    · exact ⟨_, holds.descriptor, rfl⟩
    rcases List.mem_cons.mp cases with rfl | cases
    · exact ⟨_, holds.item, rfl⟩
    · exact holds.content.notStream ptr cases
  exact ((keeps ptr member).obj present other).trans present.symm

/-- The file while its blocks stay. -/
theorem FileRecord.Holds.congr (holds : record.Holds kernel)
    (same : ∀ ptr ∈ record.blocks, next.objs ptr = kernel.objs ptr) : record.Holds next := by
  unfold blocks at same
  simp only [List.forall_mem_cons] at same
  obtain ⟨desc, descriptor, item, entry, buffer⟩ := same
  exact ⟨desc.trans holds.desc, descriptor.trans holds.descriptor, item.trans holds.item,
    (holds.content.congr entry buffer).1⟩

/-- What is open is read off the blocks. -/
theorem FileRecord.Holds.view (holds : record.Holds kernel)
    (slot : kernel.fileDescriptors[record.index]? = some record.ptrs.desc) :
    fileView kernel record.index = some {
      descriptor := {
        index := (record.index + 1 : Nat)
        filesystem := some .fat16
        privateData := record.ptrs.descriptor
        disk := .disk }
      privateData := { item := record.ptrs.item, pos := record.pos }
      item := { pointer := record.ptrs.entry, type := record.type }
      content := kernel.objs record.ptrs.entry
      entries := directoryEntries kernel (kernel.objs record.ptrs.entry) } := by
  unfold fileView
  simp only [slot, holds.desc, holds.descriptor, holds.item, Option.bind_eq_bind, Option.bind_some,
    Obj.fileDescriptor?, Obj.fatFileDescriptor?, Obj.fatItem?]

/-- What is open stays while the blocks do. -/
theorem FileRecord.Holds.view_congr (holds : record.Holds kernel)
    (same : ∀ ptr ∈ record.blocks, next.objs ptr = kernel.objs ptr)
    (slot : kernel.fileDescriptors[record.index]? = some record.ptrs.desc)
    (slot' : next.fileDescriptors[record.index]? = some record.ptrs.desc) :
    fileView next record.index = fileView kernel record.index := by
  rw [holds.view slot, (holds.congr same).view slot']
  unfold blocks at same
  simp only [List.forall_mem_cons] at same
  obtain ⟨_, _, _, entry, buffer⟩ := same
  rw [entry, ← (holds.content.congr entry buffer).2, entry]

end Records

/-- A block of the volume: its private structure, a stream or the buffer of the root directory. -/
def VolumeOwns (volume : FatPrivate) (kernel : Kernel) (ptr : Nat) : Prop :=
  ptr = kernel.disk.fsPrivate ∨ ptr ∈ volume.streams ∨ ptr = volume.rootDirectory.item

/-- The volume is mounted and the files are open, each with blocks of its own. -/
structure FilesHeld (live : List Allocation) (volume : FatPrivate) (kernel : Kernel)
    (records : List FileRecord) : Prop where
  root : RootLive live volume kernel
  filesystem : kernel.disk.filesystem = some .fat16
  holds : ∀ record ∈ records, record.Holds kernel
  owned : Owned (fun (record : FileRecord) ptr => ptr ∈ record.blocks) live records
  apart : ∀ record ∈ records, ∀ ptr ∈ record.blocks, ¬ VolumeOwns volume kernel ptr

section Held

variable {region : KernelRegion} {live live' : List Allocation} {kernel next : Kernel}
  {volume : FatPrivate} {record : FileRecord} {records rest : List FileRecord} {own : Nat → Prop}

theorem RootLive.owned (root : RootLive live volume kernel) {ptr : Nat}
    (here : VolumeOwns volume kernel ptr) : ∃ allocation ∈ live, allocation.ptr = ptr := by
  rcases here with rfl | stream | rfl
  · exact root.volumeLive.privateHeld
  · exact root.volumeLive.streamsHeld ptr stream
  · exact root.held

/-- Fewer allocations, among them those of the volume. -/
theorem RootLive.fewer (root : RootLive live volume kernel)
    (held : ∀ ptr, VolumeOwns volume kernel ptr → ∃ allocation ∈ live', allocation.ptr = ptr) :
    RootLive live' volume kernel where
  volumeLive := {
    root.volumeLive with
    privateHeld := held _ (.inl rfl)
    streamsHeld := fun stream member => held stream (.inr (.inl member)) }
  buffer := root.buffer
  held := held _ (.inr (.inr rfl))

theorem RootLive.of_same (root : RootLive live volume kernel) (objs : next.objs = kernel.objs)
    (disk : next.disk = kernel.disk) : RootLive live volume next := by
  refine ⟨⟨?_, fun stream member => ?_, ?_, root.volumeLive.streamsHeld⟩, ?_, root.held⟩
  · rw [objs, disk]
    exact root.volumeLive.fsPrivate
  · unfold OnDisk
    rw [objs]
    exact root.volumeLive.onDisk stream member
  · rw [disk]
    exact root.volumeLive.privateHeld
  · rw [objs]
    exact root.buffer

namespace FilesHeld

theorem perm (held : FilesHeld live volume kernel records) (same : records.Perm rest) :
    FilesHeld live volume kernel rest where
  root := held.root
  filesystem := held.filesystem
  holds := fun record member => held.holds record (same.mem_iff.mpr member)
  owned := held.owned.perm same
  apart := fun record member => held.apart record (same.mem_iff.mpr member)

/-- The files are in the objects and the disk. -/
theorem of_same (held : FilesHeld live volume kernel records) (objs : next.objs = kernel.objs)
    (disk : next.disk = kernel.disk) : FilesHeld live volume next records where
  root := held.root.of_same objs disk
  filesystem := by rw [disk, held.filesystem]
  holds := fun record member => (held.holds record member).congr fun _ _ => by rw [objs]
  owned := held.owned
  apart := by
    unfold VolumeOwns
    rw [disk]
    exact held.apart

/-- Where only other blocks were allocated, the blocks of the files are the same. -/
theorem same (held : FilesHeld live volume kernel records)
    (grown : Grown region live live' kernel next own) (member : record ∈ records) :
    ∀ ptr ∈ record.blocks, next.objs ptr = kernel.objs ptr :=
  (held.holds record member).same fun ptr here =>
    grown.keeps (held.owned.held record member ptr here)

theorem grown (held : FilesHeld live volume kernel records)
    (grown : Grown region live live' kernel next own) : FilesHeld live' volume next records where
  root := held.root.grown grown
  filesystem := by rw [grown.disk, held.filesystem]
  holds := fun record member => (held.holds record member).congr (held.same grown member)
  owned := held.owned.grow grown.grown
  apart := by
    unfold VolumeOwns
    rw [grown.disk]
    exact held.apart

/-- One more file, in new blocks. -/
theorem add (held : FilesHeld live volume kernel records)
    (grown : Grown region live live' kernel next own) (holds : record.Holds next)
    (new : ∀ ptr ∈ record.blocks, own ptr) : FilesHeld live' volume next (record :: records) := by
  have held' := held.grown grown
  refine { held' with holds := ?_, owned := ?_, apart := ?_ }
  · exact List.forall_mem_cons.mpr ⟨holds, held'.holds⟩
  · exact held.owned.add grown.grown
      (fun allocation member here => grown.fresh allocation member (new _ here))
      fun ptr here => grown.held ptr (new ptr here)
  · refine List.forall_mem_cons.mpr ⟨fun ptr here there => ?_, held'.apart⟩
    unfold VolumeOwns at there
    rw [grown.disk] at there
    obtain ⟨allocation, member, rfl⟩ := held.root.owned there
    exact grown.fresh allocation member (new _ here)

/-- The other files and the volume, without the blocks of one file. -/
theorem without (held : FilesHeld live volume kernel (record :: rest)) :
    FilesHeld (live.filter fun allocation => allocation.ptr ∉ record.blocks) volume kernel
      rest := by
  have left : ∀ ptr, ptr ∉ record.blocks → (∃ allocation ∈ live, allocation.ptr = ptr) →
      ∃ allocation ∈ live.filter fun allocation => allocation.ptr ∉ record.blocks,
        allocation.ptr = ptr := by
    rintro _ other ⟨allocation, member, rfl⟩
    exact ⟨allocation, List.mem_filter.mpr ⟨member, decide_eq_true other⟩, rfl⟩
  have others := List.pairwise_cons.mp held.owned.apart
  refine ⟨held.root.fewer fun ptr owns => left ptr (fun here =>
      held.apart record List.mem_cons_self ptr here owns) (held.root.owned owns), held.filesystem,
    fun other member => held.holds other (List.mem_cons_of_mem _ member), ⟨?_, others.2⟩,
    fun other member => held.apart other (List.mem_cons_of_mem _ member)⟩
  intro other member ptr here
  exact left ptr (fun mine => others.1 other member ptr mine here)
    (held.owned.held other (List.mem_cons_of_mem _ member) ptr here)

end FilesHeld

end Held

/-- The files are those of the table: the slot of each one leads to its descriptor, and every slot
that is not null is the slot of one of them. -/
structure FileTable (region : KernelRegion) (live : List Allocation) (volume : FatPrivate)
    (kernel : Kernel) (records : List FileRecord) : Prop
    extends FilesHeld live volume kernel records where
  invariant : KernelInvariant region live kernel
  size : kernel.fileDescriptors.length = peachosMaxFileDescriptors
  slots : ∀ index desc, desc ≠ 0 → (kernel.fileDescriptors[index]? = some desc ↔
    ∃ record ∈ records, record.index = index ∧ record.ptrs.desc = desc)

/-- The files in the slots that a call does not touch are as they were. -/
def KeepsFiles (kernel next : Kernel) (touched : Nat → Prop) : Prop :=
  ∀ index desc, ¬ touched index → desc ≠ 0 → kernel.fileDescriptors[index]? = some desc →
    next.fileDescriptors[index]? = some desc ∧ fileView next index = fileView kernel index

section Table

variable {region : KernelRegion} {live : List Allocation} {kernel next : Kernel}
  {volume : FatPrivate} {record : FileRecord} {records rest : List FileRecord}

namespace FileTable

theorem perm (table : FileTable region live volume kernel records) (same : records.Perm rest) :
    FileTable region live volume kernel rest where
  toFilesHeld := table.toFilesHeld.perm same
  invariant := table.invariant
  size := table.size
  slots := by
    intro index desc notNull
    simp only [table.slots index desc notNull, same.mem_iff]

theorem notNull (table : FileTable region live volume kernel records)
    (member : record ∈ records) : record.ptrs.desc ≠ 0 := by
  intro null
  have present := (table.holds record member).desc
  rw [null, table.invariant.null] at present
  cases present

theorem slot (table : FileTable region live volume kernel records) (member : record ∈ records) :
    kernel.fileDescriptors[record.index]? = some record.ptrs.desc :=
  (table.slots _ _ (table.notNull member)).mpr ⟨record, member, rfl, rfl⟩

theorem index_lt (table : FileTable region live volume kernel records)
    (member : record ∈ records) : record.index < peachosMaxFileDescriptors := by
  rw [← table.size]
  exact (List.getElem?_eq_some_iff.mp (table.slot member)).1

/-- Two files have different slots. -/
theorem index_ne (table : FileTable region live volume kernel (record :: rest))
    {other : FileRecord} (member : other ∈ rest) : other.index ≠ record.index := by
  intro same
  have here := table.slot (List.mem_cons_of_mem _ member)
  rw [same, table.slot List.mem_cons_self] at here
  refine (List.pairwise_cons.mp table.owned.apart).1 other member record.ptrs.desc
    List.mem_cons_self ?_
  rw [Option.some.inj here]
  exact List.mem_cons_self

/-- The table without the slot of one file. -/
theorem slots_without (table : FileTable region live volume kernel (record :: rest))
    (index desc : Nat) (notNull : desc ≠ 0) :
    (kernel.fileDescriptors.set record.index 0)[index]? = some desc ↔
      ∃ other ∈ rest, other.index = index ∧ other.ptrs.desc = desc := by
  have inside := table.index_lt List.mem_cons_self
  by_cases same : record.index = index
  · rw [← same, List.getElem?_set_self (by rw [table.size]; exact inside)]
    constructor
    · exact fun null => absurd (Option.some.inj null).symm notNull
    · rintro ⟨other, member, here, _⟩
      exact absurd here (table.index_ne member)
  · rw [List.getElem?_set_ne same, table.slots index desc notNull]
    simp only [List.exists_mem_cons_iff, same, false_and, false_or]

/-- The table with one more slot taken. -/
theorem slots_with (table : FileTable region live volume kernel records) (added : FileRecord)
    (free : kernel.fileDescriptors[added.index]? = some 0)
    (index desc : Nat) (notNull : desc ≠ 0) :
    (kernel.fileDescriptors.set added.index added.ptrs.desc)[index]? = some desc ↔
      ∃ other ∈ added :: records, other.index = index ∧ other.ptrs.desc = desc := by
  have inside := (List.getElem?_eq_some_iff.mp free).1
  by_cases same : added.index = index
  · have none : ¬ ∃ other ∈ records, other.index = index ∧ other.ptrs.desc = desc := by
      rw [← table.slots index desc notNull, ← same, free]
      exact fun null => notNull (Option.some.inj null).symm
    rw [← same] at none ⊢
    simp only [List.getElem?_set_self inside, List.exists_mem_cons_iff, none, or_false, true_and,
      Option.some.injEq]
  · rw [List.getElem?_set_ne same, table.slots index desc notNull]
    simp only [List.exists_mem_cons_iff, same, false_and, false_or]

/-- Each descriptor of the table has the number of its slot. -/
theorem numbered (table : FileTable region live volume kernel records) {index desc : Nat}
    (notNull : desc ≠ 0) (here : kernel.fileDescriptors[index]? = some desc) :
    ∃ view, fileView kernel index = some view ∧ view.descriptor.index = (index + 1 : Nat) := by
  obtain ⟨record, member, rfl, rfl⟩ := (table.slots index desc notNull).mp here
  exact ⟨_, (table.holds record member).view here, rfl⟩

/-- The table while only other blocks are allocated. -/
theorem grown (table : FileTable region live volume kernel records) {live' : List Allocation}
    {own : Nat → Prop} (grown : Grown region live live' kernel next own) :
    FileTable region live' volume next records := by
  have same : next.fileDescriptors = kernel.fileDescriptors := by rw [grown.globals]
  exact ⟨table.toFilesHeld.grown grown, grown.invariant, by rw [same, table.size], by
    rw [same]
    exact table.slots⟩

/-- What is open stays where only other blocks were allocated. -/
theorem keepsFiles (table : FileTable region live volume kernel records)
    {held live' : List Allocation} {last : Kernel} {own touched : Nat → Prop}
    (files : FilesHeld held volume kernel rest)
    (others : ∀ record ∈ records, ¬ touched record.index → record ∈ rest)
    (grown : Grown region held live' kernel last own) (objs : next.objs = last.objs)
    (slots : ∀ index, ¬ touched index →
      next.fileDescriptors[index]? = kernel.fileDescriptors[index]?) :
    KeepsFiles kernel next touched := by
  rintro index desc untouched notNull here
  obtain ⟨record, member, rfl, rfl⟩ := (table.slots index desc notNull).mp here
  have stays := slots _ untouched
  refine ⟨stays.trans here, (table.holds record member).view_congr (fun ptr mine => ?_) here
    (stays.trans here)⟩
  rw [objs, files.same grown (others record member untouched) ptr mine]

end FileTable

end Table

end Peachos
