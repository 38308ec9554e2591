import Peachos.Fs.Lookup
import Peachos.Fs.SubdirectoryLoad

/-! # Items that can be freed

`fat16_fat_item_free` follows the pointer of an item unless it is one of a directory and null. The
pointer of an item that was just made leads to an object, or is that one, exactly when the heap had
a block for the copy of a file, or none at all for a directory, or the directory was filled
(`fat16NewFatItemForDirectoryItem_whole`).
-/

namespace Peachos

open CInt

/-- The item leads to an object, or to no directory. -/
def ItemWhole (kernel : Kernel) (item : Nat) : Prop :=
  ∀ value, kernel.objs item = some (.fatItem value) →
    (kernel.objs value.pointer).isSome ∨ value.type = fatItemTypeDirectory ∧ value.pointer = 0

/-- The scan of the subdirectory ends after the entries, a buffer for those that are not deleted is
granted after the lowest `taken` free blocks, and the links of their clusters are accepted. -/
structure SubdirectoryFills (volume : FatPrivate) (drive : Nat → UInt8) (heap : Heap)
    (item : FatDirectoryItem) (taken : Nat) (entries : List (List UInt8)) : Prop where
  scanned : ScannedFrom drive (subdirectoryStart volume item) entries
  granted : heap.GrantsAfter taken (sizeofFatDirectoryItem * liveCount entries)
  clusters : 1 ≤ volume.header.sectorsPerCluster
  chain : ChainAccepted volume drive (i32 (fat16GetFirstCluster item))
    (sizeofFatDirectoryItem * liveCount entries)

/-- There is a second free block for the copy of the entry of a file; for a directory there is none
for its structure, or it can be filled after the blocks of the item and of the structure. -/
def ItemFits (volume : FatPrivate) (kernel : Kernel) (raw : List UInt8) : Prop :=
  if (FatDirectoryItem.decode raw).attributes &&& fatFileSubdirectory = 0
  then 2 ≤ kernel.heap.freeBlocks
  else kernel.heap.freeBlocks = 1 ∨ ∃ entries, SubdirectoryFills volume kernel.drive kernel.heap
    (FatDirectoryItem.decode raw) 2 entries

section Made

variable {region : KernelRegion} {live live' : List Allocation} {kernel next : Kernel}
  {volume : FatPrivate} {read : StreamRead} {item directory : Nat} {raw : List UInt8}
  {owned : Nat → Prop}

/-- What an item that was made leads to is its own. -/
theorem ItemMade.owns_pointer (made : ItemMade live kernel raw item owned)
    (null : kernel.objs 0 = none) {value : FatItem}
    (present : kernel.objs item = some (.fatItem value))
    (there : (kernel.objs value.pointer).isSome) : owned value.pointer := by
  cases made with
  | refused isNull _ =>
      rw [isNull, null] at present
      cases present
  | uncopied _ present' _ =>
      rw [present'] at present
      cases present
      rw [null] at there
      cases there
  | file pointer _ present' _ owns =>
      rw [present'] at present
      cases present
      exact (owns _).mpr (.inr rfl)
  | dangling pointer _ present' freed _ =>
      rw [present'] at present
      cases present
      rw [freed] at there
      cases there
  | directory pointer _ _ _ _ present' loaded owns =>
      rw [present'] at present
      cases present
      exact (owns _).mpr (.inr loaded.owns)

/-- Writing another object leaves the item as whole as it is. -/
theorem itemWhole_setObj {ptr : Nat} {contents : Obj} (there : (kernel.objs ptr).isSome)
    (other : item ≠ ptr) :
    ItemWhole (kernel.setObj ptr (some contents)) item ↔ ItemWhole kernel item := by
  unfold ItemWhole
  rw [Kernel.setObj_objs_of_ne _ _ other]
  refine forall_congr' fun value => forall_congr' fun _ => or_congr_left ?_
  by_cases same : value.pointer = ptr
  · rw [same, Kernel.setObj_objs_self]
    exact iff_of_true rfl there
  · rw [Kernel.setObj_objs_of_ne _ _ same]

theorem Heap.roomAfter_of_free {heap : Heap} (free : 1 ≤ heap.freeBlocks) : heap.RoomAfter 0 1 := by
  obtain ⟨block, member⟩ := Finset.card_pos.mp free
  obtain ⟨inside, here⟩ := Finset.mem_filter.mp member
  refine (Heap.roomAfter_zero heap 1).mpr ⟨block, Finset.mem_range.mp inside,
    fun other after before => ?_⟩
  rwa [show other = block by omega]

/-- The item of a file has no copy of the entry where only its own block was free. -/
theorem fat16NewFatItemForDirectoryItem_uncopied (inv : KernelInvariant region live kernel)
    (one : kernel.heap.freeBlocks = 1)
    (regular : (FatDirectoryItem.decode raw).attributes &&& fatFileSubdirectory = 0) :
    ∃ found last, (fat16NewFatItemForDirectoryItem read raw).run kernel = .ok (found, last) ∧
      last.objs found = some (.fatItem { type := fatItemTypeFile }) ∧ last.objs 0 = none := by
  obtain ⟨found, allocated, requested, placed, _⟩ :=
    kmalloc_lowest inv (show blocksFor sizeofFatItem = 1 by decide) one.ge (.fatItem {})
  have counted := placed.freeBlocks inv
  have oneBlock : blocksFor sizeofFatItem = 1 := by decide
  have opened : (load Obj.fatItem? found).run allocated = .ok (_, allocated) :=
    load_of_obj placed.present rfl
  have there : (allocated.objs found).isSome := by
    rw [placed.present]
    rfl
  obtain ⟨marked, same⟩ : ∃ marked, marked =
      allocated.setObj found (some (.fatItem { type := fatItemTypeFile })) := ⟨_, rfl⟩
  have stored : KernelInvariant region _ marked := same ▸ placed.invariant.setObj there _
  have present : marked.objs found = some (.fatItem { type := fatItemTypeFile }) := by
    rw [same, Kernel.setObj_objs_self]
  have full : marked.heap.freeBlocks = 0 := by
    have heap : marked.heap = allocated.heap := by rw [same]; rfl
    rw [heap]
    omega
  have refused := kmalloc_refused stored (show 1 ≤ sizeofFatDirectoryItem by decide) (by decide)
    (Heap.refuses_of_full full (by decide)) (.bytes (List.replicate sizeofFatDirectoryItem 0))
  have uncloned : (fat16CloneDirectoryItem raw sizeofFatDirectoryItem).run marked =
      .ok (0, marked) := by
    rw [fat16CloneDirectoryItem, if_neg (lt_irrefl _), kzalloc, Exec.bind_of_ok refused, if_pos rfl,
      Exec.run_pure]
  have opened' : (load Obj.fatItem? found).run marked = .ok (_, marked) := load_of_obj present rfl
  have there' : (marked.objs found).isSome := by
    rw [present]
    rfl
  refine ⟨found, _, ?_, Kernel.setObj_objs_self .., (stored.setObj there' _).null⟩
  rw [fat16NewFatItemForDirectoryItem, kzalloc, Exec.bind_of_ok requested, if_neg placed.notNull,
    if_neg (not_not.mpr regular), Exec.bind_of_ok opened, Exec.bind_of_ok (store_of_live there),
    ← same, Exec.bind_of_ok uncloned, Exec.bind_of_ok opened',
    Exec.bind_of_ok (store_of_live there'), Exec.run_pure]

/-- The directory of a subdirectory is what the first request returned. -/
theorem fat16LoadFatDirectory_requested {entry : FatDirectoryItem}
    (subdirectory : entry.attributes &&& fatFileSubdirectory ≠ 0)
    (run : (fat16LoadFatDirectory read entry).run kernel = .ok (directory, next)) :
    ∃ allocated, (kmalloc sizeofFatDirectory (.fatDirectory {})).run kernel =
      .ok (directory, allocated) := by
  rw [fat16LoadFatDirectory, if_neg subdirectory] at run
  obtain ⟨found, allocated, requested, rest⟩ := Exec.bind_eq_ok.mp run
  refine ⟨allocated, ?_⟩
  suffices same : directory = found by rw [same]; exact requested
  by_cases null : found = 0
  · rw [if_pos null] at rest
    obtain ⟨_, _, _, rest⟩ := Exec.bind_eq_ok.mp rest
    cases rest
    exact null.symm
  rw [if_neg null] at rest
  obtain ⟨res, _, _, rest⟩ := Exec.bind_eq_ok.mp rest
  by_cases failed : res ≠ 0
  · rw [if_pos failed] at rest
    obtain ⟨_, _, _, rest⟩ := Exec.bind_eq_ok.mp rest
    cases rest
    rfl
  · rw [if_neg failed] at rest
    cases rest
    rfl

/-- A completed load has a directory at the end when it can be filled after its structure. -/
theorem fat16LoadFatDirectory_there (inv : KernelInvariant region live kernel)
    (held : VolumeLive live volume kernel) (bounded : VolumeBounded volume kernel)
    {entry : FatDirectoryItem} (subdirectory : entry.attributes &&& fatFileSubdirectory ≠ 0)
    (free : 1 ≤ kernel.heap.freeBlocks)
    (run : (fat16LoadFatDirectory diskstreamerRead entry).run kernel = .ok (directory, next)) :
    directory ≠ 0 ∧ ((next.objs directory).isSome ↔ ∃ entries,
      SubdirectoryFills volume kernel.drive kernel.heap entry 1 entries) := by
  have reads := diskstreamerRead_readsStreams
  obtain ⟨allocated, requested⟩ := fat16LoadFatDirectory_requested subdirectory run
  obtain ⟨_, _, requested', placed, lowest⟩ :=
    kmalloc_lowest inv blocksFor_fatDirectory free (.fatDirectory {})
  rw [requested] at requested'
  obtain ⟨rfl, rfl⟩ := Prod.mk.inj (Except.ok.inj requested')
  have grown := ((Grown.refl inv).placed placed).congr fun ptr => or_iff_left not_false
  refine ⟨placed.notNull, ?_⟩
  rcases fat16LoadFatDirectory_cases reads inv held subdirectory run with ⟨null, _⟩ |
    ⟨_, res, middle, requested', _, fill, outcome⟩
  · exact absurd null placed.notNull
  rw [requested] at requested'
  obtain ⟨-, rfl⟩ := Prod.mk.inj (Except.ok.inj requested')
  rcases outcome with ⟨failed, gone, _⟩ | ⟨rfl, rfl, _, _, value, _, _, loaded⟩
  · refine iff_of_false (by rw [gone]; decide) ?_
    rintro ⟨entries, fills⟩
    have granted : allocated.heap.Grants (sizeofFatDirectoryItem * liveCount entries) :=
      (Heap.grantsAfter_zero _ _).mp ((lowest.grantsAfter 0 _).mpr fills.granted)
    obtain ⟨_, _, fill', _⟩ := fat16FillDirectory_fills held
      (bounded.toMounted inv held fills.clusters) grown rfl placed.present fills.scanned granted
      fills.chain
    rw [fill] at fill'
    exact failed (Prod.mk.inj (Except.ok.inj fill')).1
  · refine iff_of_true (by rw [loaded.present]; rfl) ?_
    obtain ⟨entries, buffer, out, filled⟩ :=
      fat16FillDirectory_filled held bounded grown rfl placed.present fill
    exact ⟨entries, filled.scanned, (lowest.grantsAfter 0 _).mp
      ((Heap.grantsAfter_zero _ _).mpr filled.granted), filled.clusters,
      filled.chain placed.invariant⟩

/-- The item of a file has the copy of its entry if there is a block for it. -/
theorem fat16NewFatItemForDirectoryItem_wholeFile (inv : KernelInvariant region live kernel)
    (length : raw.length = sizeofFatDirectoryItem) (free : 1 ≤ kernel.heap.freeBlocks)
    (regular : (FatDirectoryItem.decode raw).attributes &&& fatFileSubdirectory = 0)
    (run : (fat16NewFatItemForDirectoryItem diskstreamerRead raw).run kernel = .ok (item, next)) :
    ItemWhole next item ↔ 2 ≤ kernel.heap.freeBlocks := by
  by_cases one : kernel.heap.freeBlocks = 1
  · obtain ⟨_, _, run', present, null⟩ :=
      @fat16NewFatItemForDirectoryItem_uncopied _ _ _ diskstreamerRead _ inv one regular
    rw [run] at run'
    cases run'
    refine iff_of_false (fun whole => ?_) (by omega)
    rcases whole _ present with there | ⟨directory, _⟩
    · rw [null] at there
      cases there
    · cases directory
  · have oneBlock : blocksFor sizeofFatItem = 1 := by decide
    obtain ⟨_, _, _, placed, lowest⟩ := kmalloc_lowest inv oneBlock free (.fatItem {})
    have counted := placed.freeBlocks inv
    have room : kernel.heap.RoomAfter 1 1 :=
      (lowest.roomAfter 0 1).mp (Heap.roomAfter_of_free (by omega))
    obtain ⟨_, _, _, run', present, copy⟩ :=
      @fat16NewFatItemForDirectoryItem_file _ _ _ diskstreamerRead inv room _ length regular
    rw [run] at run'
    cases run'
    refine iff_of_true (fun value here => .inl ?_) (by omega)
    rw [present] at here
    cases here
    rw [copy]
    rfl

/-- An item of a directory is whole if its pointer is null or leads to an object. -/
theorem itemWhole_directory {directory : Nat} (untouched : (kernel.objs item).isSome) :
    ItemWhole (kernel.setObj item (some (.fatItem
      { pointer := directory, type := fatItemTypeDirectory }))) item ↔
        (kernel.objs directory).isSome ∨ directory = 0 := by
  have there : ((kernel.setObj item (some (.fatItem
      { pointer := directory, type := fatItemTypeDirectory }))).objs directory).isSome ↔
        (kernel.objs directory).isSome := by
    by_cases same : directory = item
    · rw [same, Kernel.setObj_objs_self]
      exact iff_of_true rfl untouched
    · rw [Kernel.setObj_objs_of_ne _ _ same]
  rw [← there]
  refine ⟨fun whole => (whole _ (Kernel.setObj_objs_self ..)).imp_right And.right,
    fun either value here => ?_⟩
  rw [Kernel.setObj_objs_self] at here
  cases here
  exact either.imp_right fun null => ⟨rfl, null⟩

/-- The item of a directory leads to it if it can be filled, and nowhere if there is no block for its
structure. -/
theorem fat16NewFatItemForDirectoryItem_wholeDirectory (inv : KernelInvariant region live kernel)
    (held : VolumeLive live volume kernel) (bounded : VolumeBounded volume kernel)
    (free : 1 ≤ kernel.heap.freeBlocks)
    (subdirectory : (FatDirectoryItem.decode raw).attributes &&& fatFileSubdirectory ≠ 0)
    (run : (fat16NewFatItemForDirectoryItem diskstreamerRead raw).run kernel = .ok (item, next)) :
    ItemWhole next item ↔ kernel.heap.freeBlocks = 1 ∨ ∃ entries,
      SubdirectoryFills volume kernel.drive kernel.heap (FatDirectoryItem.decode raw) 2 entries := by
  have oneBlock : blocksFor sizeofFatItem = 1 := by decide
  obtain ⟨found, allocated, requested, placed, lowest⟩ :=
    kmalloc_lowest inv oneBlock free (.fatItem {})
  have counted := placed.freeBlocks inv
  have grown := ((Grown.refl inv).placed placed).congr fun ptr => or_iff_left not_false
  obtain ⟨directory, middle, loaded⟩ : ∃ directory middle, (fat16LoadFatDirectory
      diskstreamerRead (FatDirectoryItem.decode raw)).run allocated = .ok (directory, middle) := by
    rw [fat16NewFatItemForDirectoryItem, kzalloc, Exec.bind_of_ok requested,
      if_neg placed.notNull, if_pos subdirectory] at run
    obtain ⟨directory, middle, loaded, _⟩ := Exec.bind_eq_ok.mp run
    exact ⟨directory, middle, loaded⟩
  obtain ⟨made, untouched⟩ := fat16NewFatItemForDirectoryItem_loads diskstreamerRead_readsStreams
    held subdirectory requested placed loaded inv
  rw [made] at run
  cases run
  rw [itemWhole_directory (by rw [untouched]; rfl)]
  by_cases full : allocated.heap.freeBlocks = 0
  · have refused := kmalloc_refused placed.invariant (show 1 ≤ sizeofFatDirectory by decide)
      (by decide) (Heap.refuses_of_full full (by decide)) (.fatDirectory {})
    obtain ⟨_, requested'⟩ := fat16LoadFatDirectory_requested subdirectory loaded
    rw [show (kmalloc sizeofFatDirectory (.fatDirectory {})).run allocated = _ from refused]
      at requested'
    exact iff_of_true (.inr (Prod.mk.inj (Except.ok.inj requested')).1.symm) (.inl (by omega))
  · obtain ⟨notNull, fills⟩ := fat16LoadFatDirectory_there placed.invariant (held.grown grown)
      (bounded.grown grown) subdirectory (Nat.pos_of_ne_zero full) loaded
    rw [or_iff_left notNull, fills, or_iff_right (by omega), grown.drive]
    exact exists_congr fun entries =>
      ⟨fun fills => ⟨fills.scanned, (lowest.grantsAfter 1 _).mp fills.granted, fills.clusters,
          fills.chain⟩,
        fun fills => ⟨fills.scanned, (lowest.grantsAfter 1 _).mpr fills.granted, fills.clusters,
          fills.chain⟩⟩

/-- **Items that are whole.** -/
theorem fat16NewFatItemForDirectoryItem_whole (inv : KernelInvariant region live kernel)
    (held : VolumeLive live volume kernel) (bounded : VolumeBounded volume kernel)
    (length : raw.length = sizeofFatDirectoryItem) (free : 1 ≤ kernel.heap.freeBlocks)
    (run : (fat16NewFatItemForDirectoryItem diskstreamerRead raw).run kernel = .ok (item, next)) :
    ItemWhole next item ↔ ItemFits volume kernel raw := by
  by_cases regular : (FatDirectoryItem.decode raw).attributes &&& fatFileSubdirectory = 0
  · rw [ItemFits, if_pos regular]
    exact fat16NewFatItemForDirectoryItem_wholeFile inv length free regular run
  · rw [ItemFits, if_neg regular]
    exact fat16NewFatItemForDirectoryItem_wholeDirectory inv held bounded free regular run

end Made

end Peachos
