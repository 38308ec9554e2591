import Peachos.Fs.DirectoryFill

/-! # Loading a subdirectory

`fat16_load_fat_directory` returns the structure that it has freed when the directory cannot be
filled, and the item of a directory keeps that pointer. The buffer of a directory without entries
is no allocation. `subdirectorySound_iff` says when the directory and its buffer are live.
-/

namespace Peachos

open CInt FirstFit Window

/-- The scan of the subdirectory ends after the entries, at least one of them is not deleted, there
is room for as many after the lowest `taken` free blocks, and the links of their clusters are
accepted. -/
structure SubdirectoryFits (volume : FatPrivate) (drive : Nat → UInt8) (heap : Heap)
    (item : FatDirectoryItem) (taken : Nat) (entries : List (List UInt8)) : Prop where
  scanned : ScannedFrom drive (subdirectoryStart volume item) entries
  nonempty : 1 ≤ liveCount entries
  room : heap.RoomAfter taken (blocksFor (sizeofFatDirectoryItem * liveCount entries))
  clusters : 1 ≤ volume.header.sectorsPerCluster
  chain : ChainAccepted volume drive (i32 (fat16GetFirstCluster item))
    (sizeofFatDirectoryItem * liveCount entries)

/-- The directory and its buffer are live allocations, and the buffer has its entries. -/
structure LiveDirectory (live : List Allocation) (kernel : Kernel) (directory : Nat)
    (value : FatDirectory) (contents : List UInt8) : Prop where
  present : kernel.objs directory = some (.fatDirectory value)
  buffer : kernel.objs value.item = some (.bytes contents)
  size : (contents.length : Int) = sizeofFatDirectoryItem * value.total
  held : ∃ allocation ∈ live, allocation.ptr = directory
  bufferHeld : ∃ allocation ∈ live, allocation.ptr = value.item

/-- The pointer is to a live directory. -/
def DirectoryIsLive (region : KernelRegion) (kernel : Kernel) (directory : Nat) : Prop :=
  ∃ live value contents, KernelInvariant region live kernel ∧
    LiveDirectory live kernel directory value contents

/-- The load returns a live directory. -/
def LoadsLive (region : KernelRegion) (kernel : Kernel) (item : FatDirectoryItem) : Prop :=
  ∃ directory next, (fat16LoadFatDirectory diskstreamerRead item).run kernel =
    .ok (directory, next) ∧ DirectoryIsLive region next directory

section Load

variable {region : KernelRegion} {live : List Allocation} {kernel next : Kernel}
  {volume : FatPrivate} {item : FatDirectoryItem}

/-- Two lists of the live allocations of one kernel have the same pointers. -/
theorem KernelInvariant.live_iff {live' : List Allocation}
    (inv : KernelInvariant region live kernel)
    (inv' : KernelInvariant region live' kernel) {ptr : Nat}
    (held : ∃ allocation ∈ live, allocation.ptr = ptr) :
    ∃ allocation ∈ live', allocation.ptr = ptr := by
  obtain ⟨allocation, member, rfl⟩ := held
  rcases inv'.owned _ (inv.held allocation member) with there | ⟨block, inside, free, address⟩
  · exact there
  · have uncovered := (inv.heap.isFree_iff inside).mp free allocation member
    have nonempty := inv.heap.extent_nonempty member
    have start := inv.heap.placed allocation member
    unfold Extent.Covers at uncovered
    unfold peachosHeapBlockSize at *
    omega

/-- A directory with an entry has a live buffer. -/
theorem DirectoryLoaded.isLive {directory : Nat} {value : FatDirectory} {contents : List UInt8}
    {inner : Nat → Prop} (loaded : DirectoryLoaded live next directory value contents inner)
    (nonempty : 1 ≤ value.total)
    (held : ∀ ptr, inner ptr → ∃ allocation ∈ live, allocation.ptr = ptr) :
    LiveDirectory live next directory value contents := by
  obtain ⟨count, total, length⟩ := loaded.count
  have some : contents ≠ [] := by
    rintro rfl
    rw [List.length_nil] at length
    unfold sizeofFatDirectoryItem at length
    omega
  have owns := loaded.buffered some
  refine ⟨loaded.present, loaded.buffer, ?_, held _ ((owns _).mpr (.inl rfl)),
    held _ ((owns _).mpr (.inr rfl))⟩
  rw [length, total]
  rfl

/-- The buffer of a directory without entries is not live. -/
theorem DirectoryLoaded.not_live {directory : Nat} {value : FatDirectory} {contents : List UInt8}
    {inner : Nat → Prop} (loaded : DirectoryLoaded live next directory value contents inner)
    (empty : value.total = 0) : ¬ ∃ allocation ∈ live, allocation.ptr = value.item := by
  obtain ⟨count, total, length⟩ := loaded.count
  have none : contents = [] := by
    rw [← List.length_eq_zero_iff, length]
    unfold sizeofFatDirectoryItem
    omega
  rintro ⟨allocation, member, same⟩
  exact (loaded.unbuffered none).2 allocation member same

/-- **When a load returns a live directory.** -/
theorem loadsLive_iff (inv : KernelInvariant region live kernel)
    (held : VolumeLive live volume kernel) (bounded : VolumeBounded volume kernel)
    (subdirectory : item.attributes &&& fatFileSubdirectory ≠ 0) :
    LoadsLive region kernel item ↔
      ∃ entries, SubdirectoryFits volume kernel.drive kernel.heap item 1 entries := by
  have reads := diskstreamerRead_readsStreams
  constructor
  · rintro ⟨directory, next, run, live', value, contents, inv', loadedLive⟩
    have present := loadedLive.present
    rcases fat16LoadFatDirectory_cases reads inv held subdirectory run with ⟨rfl, rfl⟩ |
      ⟨allocated, res, middle, requested, placed, fill, ⟨_, gone, _⟩ |
        ⟨rfl, rfl, live'', inner, value', contents', grown, loaded⟩⟩
    · rw [inv.null] at present
      cases present
    · rw [gone] at present
      cases present
    · have grown' := ((Grown.refl inv).placed placed).congr fun ptr => or_iff_left not_false
      obtain ⟨entries, buffer, out, filled⟩ :=
        fat16FillDirectory_filled held bounded grown' rfl placed.present fill
      have same : value' = { item := buffer, total := liveCount entries } := by
        have there := loaded.present
        rw [filled.present] at there
        exact (Obj.fatDirectory.inj (Option.some.inj there)).symm
      have same' : value = value' := by
        rw [loaded.present] at present
        exact (Obj.fatDirectory.inj (Option.some.inj present)).symm
      have nonempty : 1 ≤ liveCount entries := by
        by_contra none
        refine loaded.not_live (by rw [same]; dsimp only; omega) ?_
        rw [← same']
        exact inv'.live_iff grown.invariant loadedLive.bufferHeld
      have lowest := placed.lowest inv blocksFor_fatDirectory requested
      have granted := (lowest.grantsAfter _ _).mp ((Heap.grantsAfter_zero _ _).mpr filled.granted)
      exact ⟨entries, filled.scanned, nonempty, granted.room (by
        unfold sizeofFatDirectoryItem
        omega), filled.clusters, filled.chain placed.invariant⟩
  · rintro ⟨entries, fits⟩
    have nonempty := fits.nonempty
    have positive := fits.room.positive (blocksFor_positive (by
      unfold sizeofFatDirectoryItem
      omega))
    obtain ⟨directory, allocated, requested, placed, lowest⟩ :=
      kmalloc_lowest inv blocksFor_fatDirectory positive (.fatDirectory {})
    have grown := ((Grown.refl inv).placed placed).congr fun ptr => or_iff_left not_false
    have granted : allocated.heap.Grants (sizeofFatDirectoryItem * liveCount entries) := by
      refine .inl ⟨?_, (Heap.roomAfter_zero _ _).mp ((lowest.roomAfter _ _).mpr fits.room)⟩
      unfold sizeofFatDirectoryItem
      omega
    obtain ⟨buffer, next, fill, present, _⟩ := fat16FillDirectory_fills held
      (bounded.toMounted inv held fits.clusters) grown rfl placed.present fits.scanned granted
      fits.chain
    have run := fat16LoadFatDirectory_filled subdirectory requested placed.notNull fill
    refine ⟨directory, next, run, ?_⟩
    rcases fat16LoadFatDirectory_cases reads inv held subdirectory run with ⟨null, _⟩ |
      ⟨_, _, _, _, _, _, ⟨_, gone, _⟩ |
        ⟨_, _, live', inner, value, contents, grown', loaded⟩⟩
    · exact absurd null placed.notNull
    · rw [gone] at present
      cases present
    · refine ⟨live', value, contents, grown'.invariant, loaded.isLive ?_ grown'.held⟩
      have there := loaded.present
      rw [present] at there
      obtain rfl := Obj.fatDirectory.inj (Option.some.inj there)
      exact Int.ofNat_le.mpr nonempty

/-- The item of an entry is a null pointer, or it has a live directory. -/
def NewItemLive (region : KernelRegion) (kernel : Kernel) (raw : List UInt8) : Prop :=
  ∃ item next, (fat16NewFatItemForDirectoryItem diskstreamerRead raw).run kernel =
    .ok (item, next) ∧ (item = 0 ∨ ∃ directory, next.objs item = some (.fatItem
      { pointer := directory, type := fatItemTypeDirectory }) ∧
        DirectoryIsLive region next directory)

/-- Writing another object leaves a directory live. -/
theorem DirectoryIsLive.setObj {directory ptr : Nat} {before after : Obj}
    (isLive : DirectoryIsLive region kernel directory) (present : kernel.objs ptr = some before)
    (notDirectory : before.fatDirectory? = none) (notBytes : before.bytes? = none) :
    DirectoryIsLive region (kernel.setObj ptr (some after)) directory := by
  obtain ⟨live, value, contents, inv, loaded⟩ := isLive
  have apart : ∀ {other : Nat} {contents : Obj}, kernel.objs other = some contents →
      contents.fatDirectory? ≠ none ∨ contents.bytes? ≠ none →
      (kernel.setObj ptr (some after)).objs other = some contents := by
    intro other contents here different
    rw [Kernel.setObj_objs_of_ne _ _ (Kernel.ne_of_objs here present ?_), here]
    rintro rfl
    rcases different with directory | bytes
    · exact directory notDirectory
    · exact bytes notBytes
  exact ⟨live, value, contents, inv.setObj (by rw [present]; rfl) after,
    apart loaded.present (.inl nofun), apart loaded.buffer (.inr nofun), loaded.size, loaded.held,
    loaded.bufferHeld⟩

/-- What is left live was live before another object was written. -/
theorem DirectoryIsLive.of_setObj {directory ptr : Nat} {before after : Obj}
    (isLive : DirectoryIsLive region (kernel.setObj ptr (some after)) directory)
    (present : kernel.objs ptr = some before) (notDirectory : after.fatDirectory? = none)
    (notBytes : after.bytes? = none) : DirectoryIsLive region kernel directory := by
  have back : (kernel.setObj ptr (some after)).setObj ptr (some before) = kernel := by
    rw [Kernel.setObj_setObj, Kernel.setObj_eq_self present]
  rw [← back]
  exact isLive.setObj (Kernel.setObj_objs_self ..) notDirectory notBytes

/-- **When the item of a subdirectory has a live directory.** -/
theorem newItemLive_iff (inv : KernelInvariant region live kernel)
    (held : VolumeLive live volume kernel) (bounded : VolumeBounded volume kernel)
    {raw : List UInt8}
    (subdirectory : (FatDirectoryItem.decode raw).attributes &&& fatFileSubdirectory ≠ 0) :
    NewItemLive region kernel raw ↔ kernel.heap.freeBlocks = 0 ∨ ∃ entries,
      SubdirectoryFits volume kernel.drive kernel.heap (FatDirectoryItem.decode raw) 2 entries := by
  have reads := diskstreamerRead_readsStreams
  have oneBlock : blocksFor sizeofFatItem = 1 := by decide
  by_cases full : kernel.heap.freeBlocks = 0
  · refine iff_of_true ⟨0, kernel, ?_, .inl rfl⟩ (.inl full)
    have refused := kmalloc_refused inv (show 1 ≤ sizeofFatItem by decide) (by decide)
      (Heap.refuses_of_full full (by decide)) (.fatItem {})
    rw [fat16NewFatItemForDirectoryItem, kzalloc, Exec.bind_of_ok refused, if_pos rfl,
      Exec.run_pure]
  obtain ⟨item, allocated, requested, placed, lowest⟩ :=
    kmalloc_lowest inv oneBlock (Nat.pos_of_ne_zero full) (.fatItem {})
  have grown := ((Grown.refl inv).placed placed).congr fun ptr => or_iff_left not_false
  have loads := @loadsLive_iff region _ allocated volume (FatDirectoryItem.decode raw)
    placed.invariant (held.grown grown) (bounded.grown grown) subdirectory
  have fits : (∃ entries, SubdirectoryFits volume allocated.drive allocated.heap
      (FatDirectoryItem.decode raw) 1 entries) ↔ ∃ entries, SubdirectoryFits volume kernel.drive
        kernel.heap (FatDirectoryItem.decode raw) 2 entries := by
    rw [grown.drive]
    exact exists_congr fun entries =>
      ⟨fun fits => ⟨fits.scanned, fits.nonempty, (lowest.roomAfter _ _).mp fits.room, fits.clusters,
          fits.chain⟩,
        fun fits => ⟨fits.scanned, fits.nonempty, (lowest.roomAfter _ _).mpr fits.room, fits.clusters,
          fits.chain⟩⟩
  have makes := fun directory middle =>
    @fat16NewFatItemForDirectoryItem_loads _ _ _ middle _ _ reads held _ subdirectory _ directory _
      requested placed
  rw [or_iff_right full, ← fits, ← loads]
  constructor
  · rintro ⟨item', next, run, outcome⟩
    obtain ⟨directory, middle, loaded⟩ : ∃ directory middle, (fat16LoadFatDirectory
        diskstreamerRead (FatDirectoryItem.decode raw)).run allocated = .ok (directory, middle) := by
      rw [fat16NewFatItemForDirectoryItem, kzalloc, Exec.bind_of_ok requested,
        if_neg placed.notNull, if_pos subdirectory] at run
      obtain ⟨directory, middle, loaded, _⟩ := Exec.bind_eq_ok.mp run
      exact ⟨directory, middle, loaded⟩
    obtain ⟨made, present⟩ := makes directory middle loaded inv
    rw [made] at run
    cases run
    rcases outcome with null | ⟨directory', there, isLive⟩
    · exact absurd null placed.notNull
    · rw [Kernel.setObj_objs_self] at there
      cases there
      exact ⟨directory, middle, loaded, isLive.of_setObj present rfl rfl⟩
  · rintro ⟨directory, middle, loaded, isLive⟩
    obtain ⟨made, present⟩ := makes directory middle loaded inv
    exact ⟨item, _, made, .inr ⟨directory, Kernel.setObj_objs_self .., isLive.setObj present rfl rfl⟩⟩

/-- A load of the entry returns null or a live directory, and the item of a subdirectory is null or
has a live directory. -/
structure SubdirectorySound (region : KernelRegion) (kernel : Kernel) (raw : List UInt8) : Prop
    where
  load : ∃ directory next, (fat16LoadFatDirectory diskstreamerRead
      (FatDirectoryItem.decode raw)).run kernel = .ok (directory, next) ∧
    (directory = 0 ∨ DirectoryIsLive region next directory)
  item : (FatDirectoryItem.decode raw).attributes &&& fatFileSubdirectory ≠ 0 →
    NewItemLive region kernel raw

/-- **When a failed load is reported.** For an entry of a subdirectory this is when no block is free
at all, or when the directory fits behind the two blocks of its item and its structure. -/
theorem subdirectorySound_iff (inv : KernelInvariant region live kernel)
    (held : VolumeLive live volume kernel) (bounded : VolumeBounded volume kernel)
    (raw : List UInt8) :
    SubdirectorySound region kernel raw ↔
      (FatDirectoryItem.decode raw).attributes &&& fatFileSubdirectory = 0 ∨
        kernel.heap.freeBlocks = 0 ∨ ∃ entries, SubdirectoryFits volume kernel.drive kernel.heap
          (FatDirectoryItem.decode raw) 2 entries := by
  by_cases regular : (FatDirectoryItem.decode raw).attributes &&& fatFileSubdirectory = 0
  · refine iff_of_true ⟨⟨0, kernel, ?_, .inl rfl⟩, fun more => absurd regular more⟩ (.inl regular)
    rw [fat16LoadFatDirectory, if_pos regular, Exec.bind_of_ok (fat16FreeDirectory_null _),
      Exec.run_pure]
  rw [or_iff_right regular, ← newItemLive_iff inv held bounded regular]
  refine ⟨fun sound => sound.item regular, fun isLive => ⟨?_, fun _ => isLive⟩⟩
  rcases (newItemLive_iff inv held bounded regular).mp isLive with full | ⟨entries, fits⟩
  · refine ⟨0, kernel, ?_, .inl rfl⟩
    have refused := kmalloc_refused inv (show 1 ≤ sizeofFatDirectory by decide) (by decide)
      (Heap.refuses_of_full full (by decide)) (.fatDirectory {})
    rw [fat16LoadFatDirectory, if_neg regular, kzalloc, Exec.bind_of_ok refused, if_pos rfl,
      Exec.bind_of_ok (fat16FreeDirectory_null _), Exec.run_pure]
  · obtain ⟨directory, next, run, isLive⟩ := (loadsLive_iff inv held bounded regular).mpr
      ⟨entries, fits.scanned, fits.nonempty, fits.room.fewer (by omega), fits.clusters,
        fits.chain⟩
    exact ⟨directory, next, run, .inr isLive⟩

end Load

/-- A directory of one entry, on a heap with room, is loaded. -/
theorem subdirectorySound_boot : ∃ live kernel volume,
    KernelInvariant kernelHeapRegion live kernel ∧ VolumeLive live volume kernel ∧
      VolumeBounded volume kernel ∧
        SubdirectorySound kernelHeapRegion kernel subdirectoryEntry := by
  obtain ⟨live, kernel, volume, small⟩ :=
    @smallVolume_boot [(1536, 65)] [] (by decide +kernel) (by decide +kernel) (by decide)
  refine ⟨live, kernel, volume, small.invariant, small.held, small.bounded,
    (subdirectorySound_iff small.invariant small.held small.bounded subdirectoryEntry).mpr
      (.inr (.inr ⟨[65 :: List.replicate 31 0], ?_, by decide, small.room.after (by decide),
        by rw [small.header]; decide, by decide, ?_⟩))⟩
  · rw [small.start, small.drive]
    exact @ScannedFrom.of_directoryAt _ _ 1536 (by decide +kernel) (by decide)
  · rintro piece (rfl | inside)
    · trivial
    · have one : liveCount [65 :: List.replicate 31 (0 : UInt8)] = 1 := by decide
      rw [small.clusterBytes, one] at inside
      obtain rfl : piece = 0 := by
        unfold sizeofFatDirectoryItem at inside
        omega
      trivial

/-- The seventeen entries of a directory whose one cluster has room for sixteen. -/
def brokenChainImage : List (Nat × UInt8) :=
  (List.range 17).map fun i => (1536 + sizeofFatDirectoryItem * i, 65)

/-- Where the chain breaks before the counted entries have been read, no live directory is
returned, and the item of the entry has none. -/
theorem subdirectorySound_brokenChain : ∃ live kernel volume,
    KernelInvariant kernelHeapRegion live kernel ∧ VolumeLive live volume kernel ∧
      VolumeBounded volume kernel ∧
        ¬ SubdirectorySound kernelHeapRegion kernel subdirectoryEntry := by
  obtain ⟨live, kernel, volume, small⟩ :=
    @smallVolume_boot brokenChainImage [] (by decide +kernel) (by decide +kernel) (by decide)
  refine ⟨live, kernel, volume, small.invariant, small.held, small.bounded, fun sound => ?_⟩
  rcases (newItemLive_iff small.invariant small.held small.bounded (by decide)).mp
    (sound.item (by decide)) with full | ⟨entries, fits⟩
  · have positive := (small.room.after (show 6 + 0 + 1 ≤ 25600 by decide)).positive le_rfl
    omega
  · have stored : DirectoryAt (imageOf (smallHeader ++ brokenChainImage)) 1536
        (List.replicate 17 (65 :: List.replicate 31 0)) := by decide +kernel
    have scanned := fits.scanned
    rw [small.start, small.drive] at scanned
    obtain rfl := scanned.unique (@ScannedFrom.of_directoryAt _ _ 1536 stored (by decide))
    obtain ⟨entry, link, accepted, _⟩ := fits.chain.2 1 (.inr (by
      rw [small.clusterBytes]
      decide))
    rw [subdirectoryEntry_cluster, small.fatLink (by decide), Option.some.injEq] at link
    refine accepted ?_
    rw [← link]
    decide +kernel

end Peachos
