import Peachos.Fs.DirectoryFill
import Peachos.Fs.Walk

/-! # The entries of a subdirectory

The entries of a directory follow one another through the chain of its clusters, which may lie
anywhere on the disk. They are counted by a scan of the disk itself, from the first cluster on, so
the load is right exactly when the scan happens to count as many entries as the chain has:
`loadsEntries_iff`.
-/

namespace Peachos

open CInt Window

/-- The clusters of the chain hold the entries, none of them deleted, and then one whose first byte
is zero. The links up to the cluster of that one are accepted, and the clusters lie at positions
that an `int` can hold. -/
structure ChainDirectory (volume : FatPrivate) (drive : Nat → UInt8) (cluster : Int)
    (entries : List (List UInt8)) : Prop where
  stored : DirectoryAt (chainByte volume drive cluster) 0 entries
  undeleted : ∀ raw ∈ entries, ¬ Deleted raw
  clusters : 1 ≤ volume.header.sectorsPerCluster
  accepted : ChainAccepted volume drive cluster (sizeofFatDirectoryItem * (entries.length + 1))
  placed : ChainPlaced volume drive cluster 0 (sizeofFatDirectoryItem * (entries.length + 1))

/-- The load returns a directory with the entries, in order. -/
def LoadsEntries (kernel : Kernel) (item : FatDirectoryItem) (entries : List (List UInt8)) : Prop :=
  ∃ directory next value, (fat16LoadFatDirectory diskstreamerRead item).run kernel =
      .ok (directory, next) ∧
    next.objs directory = some (.fatDirectory value) ∧ value.total = entries.length ∧
      next.objs value.item = some (.bytes entries.flatten)

/-- The scan of the disk from the first cluster on counts as many entries. -/
def CountedAs (volume : FatPrivate) (drive : Nat → UInt8) (item : FatDirectoryItem)
    (count : Nat) : Prop :=
  ∃ scanned, ScannedFrom drive (subdirectoryStart volume item) scanned ∧ liveCount scanned = count

/-- The entries of a directory one after the other. -/
theorem DirectoryAt.flatten {drive : Nat → UInt8} {entries : List (List UInt8)} {pos : Nat}
    (directory : DirectoryAt drive pos entries) :
    entries.flatten = window drive pos (sizeofFatDirectoryItem * entries.length) := by
  induction entries generalizing pos with
  | nil => rfl
  | cons raw rest ih =>
      obtain ⟨rfl, _, tail⟩ := directory
      rw [List.flatten_cons, ih tail, window_append, List.length_cons, Nat.mul_add_one, Nat.add_comm]

/-- A directory is a matter of its bytes. -/
theorem DirectoryAt.congr {left right : Nat → UInt8} {entries : List (List UInt8)}
    {pos pos' : Nat} (directory : DirectoryAt left pos entries)
    (same : ∀ k < sizeofFatDirectoryItem * (entries.length + 1),
      left (pos + k) = right (pos' + k)) : DirectoryAt right pos' entries := by
  induction entries generalizing pos pos' with
  | nil =>
      have head : window left pos sizeofFatDirectoryItem = window right pos' _ :=
        window_congr same
      unfold DirectoryAt at *
      rwa [← head]
  | cons raw rest ih =>
      obtain ⟨rfl, used, tail⟩ := directory
      rw [List.length_cons] at same
      unfold sizeofFatDirectoryItem at *
      have head : window left pos 32 = window right pos' 32 :=
        window_congr fun k before => same k (by omega)
      refine ⟨head, used, ih tail fun k before => ?_⟩
      rw [Nat.add_assoc, Nat.add_assoc]
      exact same _ (by omega)

/-- No entry is deleted: all are counted. -/
theorem liveCount_eq {entries : List (List UInt8)} (undeleted : ∀ raw ∈ entries, ¬ Deleted raw) :
    liveCount entries = entries.length :=
  List.countP_eq_length.mpr fun raw member => decide_eq_true (undeleted raw member)

section Load

variable {region : KernelRegion} {live : List Allocation} {kernel : Kernel}
  {volume : FatPrivate} {item : FatDirectoryItem} {entries : List (List UInt8)}

/-- A directory that was loaded was counted, and its memory was granted. -/
theorem LoadsEntries.counted (inv : KernelInvariant region live kernel)
    (held : VolumeLive live volume kernel) (bounded : VolumeBounded volume kernel)
    (subdirectory : item.attributes &&& fatFileSubdirectory ≠ 0)
    (loads : LoadsEntries kernel item entries) :
    kernel.heap.GrantsAfter 1 (sizeofFatDirectoryItem * entries.length) ∧
      CountedAs volume kernel.drive item entries.length := by
  obtain ⟨directory, next, value, run, present, total, _⟩ := loads
  rcases fat16LoadFatDirectory_cases diskstreamerRead_readsStreams inv held subdirectory run with
    ⟨rfl, rfl⟩ | ⟨allocated, res, middle, requested, placed, fill, ⟨_, gone, _⟩ |
      ⟨rfl, rfl, _⟩⟩
  · rw [inv.null] at present
    cases present
  · rw [gone] at present
    cases present
  · have grown := ((Grown.refl inv).placed placed).congr fun ptr => or_iff_left not_false
    obtain ⟨scanned, buffer, out, filled⟩ :=
      fat16FillDirectory_filled held bounded grown rfl placed.present fill
    rw [filled.present] at present
    cases present
    have count : liveCount scanned = entries.length := Int.ofNat_inj.mp total
    have lowest := placed.lowest inv blocksFor_fatDirectory requested
    have granted := (lowest.grantsAfter _ _).mp ((Heap.grantsAfter_zero _ _).mpr filled.granted)
    rw [count] at granted
    exact ⟨granted, scanned, filled.scanned, count⟩

/-- The scan starts at the first cluster of the chain. -/
theorem subdirectoryStart_eq (mounted : Mounted volume kernel)
    (above : 0 ≤ i32 (fat16GetFirstCluster item))
    (lower : 0 ≤ linkedPos volume kernel.drive (i32 (fat16GetFirstCluster item)) 0)
    (upper : linkedPos volume kernel.drive (i32 (fat16GetFirstCluster item)) 0 < 2147483648) :
    subdirectoryStart volume item =
      linkedPos volume kernel.drive (i32 (fat16GetFirstCluster item)) 0 := by
  have exact := @clusterPos_eq _ _ mounted (i32 (fat16GetFirstCluster item)).toNat 0 lower
    (by rw [Int.natCast_zero, Int.add_zero]; exact upper)
  rw [Int.toNat_of_nonneg above, mounted.sectorSize] at exact
  unfold subdirectoryStart scanStart
  unfold linkedPos linkedCluster
  unfold peachosSectorSize u32 i32 at *
  omega

/-- Where the clusters of the chain follow one another on the disk, the scan counts their
entries. -/
theorem ChainDirectory.counted (mounted : Mounted volume kernel)
    (chain : ChainDirectory volume kernel.drive (i32 (fat16GetFirstCluster item)) entries)
    (consecutive : ∀ piece, piece * clusterBytes volume <
        sizeofFatDirectoryItem * (entries.length + 1) →
      linkedPos volume kernel.drive (i32 (fat16GetFirstCluster item)) piece =
        linkedPos volume kernel.drive (i32 (fat16GetFirstCluster item)) 0 +
          (piece * clusterBytes volume : Nat)) :
    CountedAs volume kernel.drive item entries.length := by
  have positive := clusterBytes_positive mounted
  obtain ⟨lower, upper⟩ := chain.placed 0 (by unfold sizeofFatDirectoryItem; omega)
  rw [Nat.zero_add] at lower upper
  have starts := subdirectoryStart_eq mounted chain.accepted.1 lower (by omega)
  obtain ⟨pos, same⟩ := Int.eq_ofNat_of_zero_le lower
  rw [same] at starts consecutive
  have whole : ∀ k, k < sizeofFatDirectoryItem * (entries.length + 1) →
      k / clusterBytes volume * clusterBytes volume <
        sizeofFatDirectoryItem * (entries.length + 1) := by
    intro k inside
    exact (Nat.div_mul_le_self _ _).trans_lt inside
  have bytes : ∀ k < sizeofFatDirectoryItem * (entries.length + 1),
      chainByte volume kernel.drive (i32 (fat16GetFirstCluster item)) (0 + k) =
        kernel.drive (pos + k) := by
    intro k inside
    have split := Nat.div_add_mod k (clusterBytes volume)
    rw [Nat.mul_comm] at split
    rw [Nat.zero_add, chainByte, consecutive _ (whole k inside)]
    refine congrArg kernel.drive ?_
    omega
  refine ⟨entries, ?_, liveCount_eq chain.undeleted⟩
  rw [starts]
  refine .of_directoryAt (chain.stored.congr bytes) ?_
  obtain ⟨last, more⟩ : ∃ last, sizeofFatDirectoryItem * (entries.length + 1) = last + 1 :=
    ⟨sizeofFatDirectoryItem * (entries.length + 1) - 1, by unfold sizeofFatDirectoryItem; omega⟩
  have inside := whole last (by omega)
  obtain ⟨_, within⟩ := chain.placed _ inside
  have rest := Nat.mod_lt last positive
  have split := Nat.div_add_mod last (clusterBytes volume)
  rw [Nat.mul_comm] at split
  rw [Nat.zero_add, consecutive _ inside] at within
  omega

/-- A directory that is counted is loaded where its memory is granted. -/
theorem ChainDirectory.loads (inv : KernelInvariant region live kernel)
    (held : VolumeLive live volume kernel) (bounded : VolumeBounded volume kernel)
    (subdirectory : item.attributes &&& fatFileSubdirectory ≠ 0)
    (chain : ChainDirectory volume kernel.drive (i32 (fat16GetFirstCluster item)) entries)
    (granted : kernel.heap.GrantsAfter 1 (sizeofFatDirectoryItem * entries.length))
    (counted : CountedAs volume kernel.drive item entries.length) :
    LoadsEntries kernel item entries := by
  obtain ⟨scanned, scan, count⟩ := counted
  obtain ⟨directory, allocated, requested, placed, lowest⟩ :=
    kmalloc_lowest inv blocksFor_fatDirectory granted.positive (.fatDirectory {})
  have grown := ((Grown.refl inv).placed placed).congr fun ptr => or_iff_left not_false
  have granted' := (Heap.grantsAfter_zero _ _).mp ((lowest.grantsAfter _ _).mpr granted)
  rw [← count] at granted'
  have shorter : sizeofFatDirectoryItem * liveCount scanned ≤
      sizeofFatDirectoryItem * (entries.length + 1) :=
    Nat.mul_le_mul_left _ (by omega)
  obtain ⟨buffer, next, fill, present, contents⟩ := fat16FillDirectory_fills held
    (bounded.toMounted inv held chain.clusters) grown rfl placed.present scan granted'
    (chain.accepted.shorter shorter)
  refine ⟨directory, next, _,
    fat16LoadFatDirectory_filled subdirectory requested placed.notNull fill, present,
    congrArg _ count, ?_⟩
  rw [contents (chain.placed.shorter shorter), count, chain.stored.flatten]

/-- The item that is made for a directory with room has its entries. -/
theorem ChainDirectory.newItem (inv : KernelInvariant region live kernel)
    (held : VolumeLive live volume kernel) (bounded : VolumeBounded volume kernel)
    {raw : List UInt8}
    (subdirectory : (FatDirectoryItem.decode raw).attributes &&& fatFileSubdirectory ≠ 0)
    (chain : ChainDirectory volume kernel.drive
      (i32 (fat16GetFirstCluster (FatDirectoryItem.decode raw))) entries)
    (granted : kernel.heap.GrantsAfter 2 (sizeofFatDirectoryItem * entries.length))
    (counted : CountedAs volume kernel.drive (FatDirectoryItem.decode raw) entries.length) :
    ∃ found next value, (fat16NewFatItemForDirectoryItem diskstreamerRead raw).run kernel =
        .ok (found, next) ∧ DirectoryOf next found value ∧ value.total = entries.length ∧
      next.objs value.item = some (.bytes entries.flatten) := by
  obtain ⟨found, allocated, requested, placed, lowest⟩ := kmalloc_lowest inv
    (show blocksFor sizeofFatItem = 1 by decide) granted.positive (.fatItem {})
  have grown := ((Grown.refl inv).placed placed).congr fun ptr => or_iff_left not_false
  rw [← grown.drive] at chain counted
  obtain ⟨directory, next, value, loaded, present, total, buffer⟩ :=
    chain.loads placed.invariant (held.grown grown) (bounded.grown grown) subdirectory
      ((lowest.grantsAfter _ _).mpr granted) counted
  obtain ⟨made, there⟩ := fat16NewFatItemForDirectoryItem_loads diskstreamerRead_readsStreams held
    subdirectory requested placed loaded inv
  refine ⟨found, _, value, made, ⟨directory, Kernel.setObj_objs_self .., ?_⟩, total, ?_⟩
  · rw [Kernel.setObj_objs_of_ne _ _ (by
      rintro rfl
      rw [present] at there
      cases there)]
    exact present
  · rw [Kernel.setObj_objs_of_ne _ _ (by
      rintro rfl
      rw [buffer] at there
      cases there)]
    exact buffer

/-- **When the entries of a subdirectory are loaded.** -/
theorem loadsEntries_iff (inv : KernelInvariant region live kernel)
    (held : VolumeLive live volume kernel) (bounded : VolumeBounded volume kernel)
    (subdirectory : item.attributes &&& fatFileSubdirectory ≠ 0)
    (chain : ChainDirectory volume kernel.drive (i32 (fat16GetFirstCluster item)) entries) :
    LoadsEntries kernel item entries ↔
      kernel.heap.GrantsAfter 1 (sizeofFatDirectoryItem * entries.length) ∧
        CountedAs volume kernel.drive item entries.length :=
  ⟨fun loads => loads.counted inv held bounded subdirectory,
    fun fits => chain.loads inv held bounded subdirectory fits.1 fits.2⟩

/-- A directory of one entry in its one cluster. -/
theorem smallVolume_oneEntry {bytes : List (Nat × UInt8)} {raw : List UInt8}
    (small : SmallVolume bytes entries live kernel volume)
    (stored : DirectoryAt (imageOf (smallHeader ++ bytes)) 1536 [raw]) (kept : ¬ Deleted raw) :
    ChainDirectory volume kernel.drive
        (i32 (fat16GetFirstCluster (FatDirectoryItem.decode subdirectoryEntry))) [raw] ∧
      CountedAs volume kernel.drive (FatDirectoryItem.decode subdirectoryEntry) 1 := by
  have mounted := small.bounded.toMounted small.invariant small.held
    (by rw [small.header]; decide)
  have only : ∀ piece, piece * clusterBytes volume < sizeofFatDirectoryItem * (1 + 1) →
      piece = 0 := by
    intro piece inside
    rw [small.clusterBytes] at inside
    unfold sizeofFatDirectoryItem at inside
    omega
  have first : linkedPos volume kernel.drive (2 : Nat) 0 = 1536 := small.clusterPos 2
  have chain : ChainDirectory volume kernel.drive (2 : Nat) [raw] := by
    refine ⟨?_, fun other member => ?_, mounted.clusterNotEmpty, ⟨by decide, ?_⟩, ?_⟩
    · refine stored.congr fun k inside => ?_
      have before : k < 512 :=
        inside.trans (show sizeofFatDirectoryItem * (1 + 1) < 512 by decide)
      rw [Nat.zero_add, chainByte, small.clusterBytes, Nat.div_eq_of_lt before,
        Nat.mod_eq_of_lt before, first, small.drive]
      rfl
    · rw [List.mem_singleton.mp member]
      exact kept
    · rintro piece (rfl | inside)
      · trivial
      · rw [only piece inside]
        trivial
    · intro piece inside
      rw [only piece inside, first, small.clusterBytes]
      decide
  rw [← subdirectoryEntry_cluster] at chain
  refine ⟨chain, chain.counted mounted fun piece inside => ?_⟩
  rw [only piece inside, Nat.zero_mul, Int.natCast_zero, Int.add_zero]

end Load

/-- A directory of one entry, on a heap with room, is loaded with it. -/
theorem loadsEntries_boot : ∃ live kernel volume,
    KernelInvariant kernelHeapRegion live kernel ∧ VolumeLive live volume kernel ∧
      VolumeBounded volume kernel ∧ LoadsEntries kernel
        (FatDirectoryItem.decode subdirectoryEntry) [65 :: List.replicate 31 0] := by
  obtain ⟨live, kernel, volume, small⟩ :=
    @smallVolume_boot [(1536, 65)] [] (by decide +kernel) (by decide +kernel) (by decide)
  have stored : DirectoryAt (imageOf (smallHeader ++ [(1536, 65)])) 1536
      [65 :: List.replicate 31 0] := by decide +kernel
  obtain ⟨chain, counted⟩ := smallVolume_oneEntry small stored (by decide)
  exact ⟨live, kernel, volume, small.invariant, small.held, small.bounded,
    (loadsEntries_iff small.invariant small.held small.bounded (by decide) chain).mpr
      ⟨.inl ⟨by decide, small.room.after (by decide)⟩, counted⟩⟩

/-- Sixteen entries in cluster 2, and the seventeenth one in cluster 4, the next one of its
chain. -/
def splitDirectoryImage : List (Nat × UInt8) :=
  (516, 4) :: (2560, 65) :: (List.range 16).map fun i => (1536 + sizeofFatDirectoryItem * i, 65)

/-- The bytes of these clusters. -/
def splitDirectoryBytes (k : Nat) : UInt8 :=
  imageOf (smallHeader ++ splitDirectoryImage) (if k < 512 then 1536 + k else 2048 + k)

/-- Of a directory in two clusters that do not follow one another only the first is counted. -/
theorem loadsEntries_split : ∃ live kernel volume,
    KernelInvariant kernelHeapRegion live kernel ∧ VolumeLive live volume kernel ∧
      VolumeBounded volume kernel ∧
      ChainDirectory volume kernel.drive
        (i32 (fat16GetFirstCluster (FatDirectoryItem.decode subdirectoryEntry)))
        (List.replicate 17 (65 :: List.replicate 31 0)) ∧
      ¬ LoadsEntries kernel (FatDirectoryItem.decode subdirectoryEntry)
        (List.replicate 17 (65 :: List.replicate 31 0)) := by
  obtain ⟨live, kernel, volume, small⟩ :=
    @smallVolume_boot splitDirectoryImage [] (by decide +kernel) (by decide +kernel) (by decide)
  have mounted := small.bounded.toMounted small.invariant small.held
    (by rw [small.header]; decide)
  have length : (List.replicate 17 (65 :: List.replicate 31 (0 : UInt8))).length = 17 := by decide
  have link : fatLink volume kernel.drive (2 : Nat) = some 4 := by
    rw [small.fatLink (by decide)]
    exact congrArg some (by decide +kernel)
  have two : ∀ piece, piece * clusterBytes volume < sizeofFatDirectoryItem * (17 + 1) →
      piece = 0 ∨ piece = 1 := by
    intro piece inside
    rw [small.clusterBytes] at inside
    unfold sizeofFatDirectoryItem at inside
    omega
  have first : linkedPos volume kernel.drive (2 : Nat) 0 = 1536 := small.clusterPos 2
  have second : linkedPos volume kernel.drive (2 : Nat) 1 = 2560 := by
    unfold linkedPos linkedCluster
    rw [link]
    exact small.clusterPos 4
  refine ⟨live, kernel, volume, small.invariant, small.held, small.bounded, ?_, fun loads => ?_⟩
  · rw [subdirectoryEntry_cluster]
    refine ⟨?_, by decide, mounted.clusterNotEmpty, ⟨by decide, ?_⟩, ?_⟩
    · have stored : DirectoryAt splitDirectoryBytes 0
          (List.replicate 17 (65 :: List.replicate 31 0)) := by decide +kernel
      refine stored.congr fun k inside => ?_
      rw [length] at inside
      unfold sizeofFatDirectoryItem at inside
      rw [Nat.zero_add, chainByte, splitDirectoryBytes, small.clusterBytes, small.drive]
      rw [small.drive] at first second
      by_cases before : k < 512
      · rw [if_pos before, Nat.div_eq_of_lt before, Nat.mod_eq_of_lt before, first]
        rfl
      · rw [if_neg before, show k / 512 = 1 by omega, show k % 512 = k - 512 by omega, second]
        refine congrArg _ ?_
        omega
    · intro piece inside
      rcases inside.elim .inl (two piece) with rfl | rfl
      · trivial
      · exact ⟨4, link, by decide, trivial⟩
    · intro piece inside
      rw [Nat.zero_add]
      rcases two piece inside with rfl | rfl
      · rw [first, small.clusterBytes]
        decide
      · rw [second, small.clusterBytes]
        decide
  · obtain ⟨_, scanned, scan, count⟩ :=
      loads.counted small.invariant small.held small.bounded (by decide)
    have stored : DirectoryAt (imageOf (smallHeader ++ splitDirectoryImage)) 1536
        (List.replicate 16 (65 :: List.replicate 31 0)) := by decide +kernel
    rw [small.start, small.drive] at scan
    obtain rfl := scan.unique (@ScannedFrom.of_directoryAt _ _ 1536 stored (by decide))
    exact absurd count (by decide)

end Peachos
