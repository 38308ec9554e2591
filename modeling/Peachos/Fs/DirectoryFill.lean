import Peachos.Fs.ChainLinks
import Peachos.Fs.DirectoryScan
import Peachos.Fs.ReadTermination

/-! # Filling a directory

A directory is counted by a scan of the disk from its first cluster on, and read through the chain
of its clusters. It is filled exactly when the scan ends, the buffer for the counted entries is
granted, and the links of their clusters are accepted.
-/

namespace Peachos

open CInt FirstFit Window

/-- The stream position at which the scan of the subdirectory starts. -/
def subdirectoryStart (volume : FatPrivate) (item : FatDirectoryItem) : Int :=
  scanStart (u32 (fat16ClusterToSector volume (i32 (fat16GetFirstCluster item))))

/-- The fields of a mounted volume have their types. Its clusters may have no sectors. -/
structure VolumeBounded (volume : FatPrivate) (kernel : Kernel) : Prop where
  sectorSize : kernel.disk.sectorSize = peachosSectorSize
  reservedSectors : volume.header.reservedSectors < 65536
  sectorsPerCluster : volume.header.sectorsPerCluster < 256
  dataAfterRoot : 0 ≤ volume.rootDirectory.endingSectorPos

section Fill

variable {region : KernelRegion} {live live' : List Allocation} {start kernel next : Kernel}
  {volume : FatPrivate} {owned : Nat → Prop} {directory : Nat} {item : FatDirectoryItem}

theorem VolumeBounded.grown (bounded : VolumeBounded volume start)
    (grown : Grown region live live' start kernel owned) : VolumeBounded volume kernel :=
  ⟨by rw [grown.disk]; exact bounded.sectorSize, bounded.reservedSectors,
    bounded.sectorsPerCluster, bounded.dataAfterRoot⟩

/-- A volume whose clusters have sectors can be read. -/
theorem VolumeBounded.toMounted (bounded : VolumeBounded volume kernel)
    (inv : KernelInvariant region live kernel) (held : VolumeLive live volume kernel)
    (clusters : 1 ≤ volume.header.sectorsPerCluster) : Mounted volume kernel where
  sectorSize := bounded.sectorSize
  fsPrivate := held.fsPrivate
  clusterReadStream := held.onDisk _ List.mem_cons_self
  fatReadStream := held.onDisk _ (List.mem_cons_of_mem _ List.mem_cons_self)
  fatReadNotNull := by
    obtain ⟨_, present, _⟩ := held.onDisk volume.fatReadStream
      (List.mem_cons_of_mem _ List.mem_cons_self)
    intro null
    rw [null, inv.null] at present
    cases present
  reservedSectors := bounded.reservedSectors
  sectorsPerCluster := bounded.sectorsPerCluster
  clusterNotEmpty := clusters
  dataAfterRoot := bounded.dataAfterRoot

/-- The code computes the size of the entries. -/
theorem directorySize_eq {count : Nat} (small : count ≤ 67108864) :
    u32 (i32 (u32 ((count : Int) * sizeofFatDirectoryItem))) = sizeofFatDirectoryItem * count := by
  unfold sizeofFatDirectoryItem u32 i32
  omega

/-- A size that is granted is one that an `int` holds. -/
theorem HeapInvariant.grantedSize {region : HeapRegion} {heap : Heap}
    (inv : HeapInvariant region live heap) {size : Nat} (granted : heap.Grants size) :
    size < 2147483648 := by
  rcases granted with ⟨_, start, inside, _⟩ | ⟨rfl, _⟩
  · have bound := inv.total_lt
    have covers := size_le_blocksFor size
    unfold peachosHeapBlockSize at covers
    omega
  · decide

/-- A granted request, which may be for no bytes. -/
theorem Grown.requested {middle : Kernel} (grown : Grown region live live' start middle owned)
    {size ptr : Nat} {contents : Obj}
    (taken : (size = 0 ∧ Placed region live' live' middle contents ptr next) ∨
      (1 ≤ size ∧ Placed region live' (⟨ptr, size⟩ :: live') middle contents ptr next)) :
    ∃ (live'' : List Allocation) (owned' : Nat → Prop),
      Placed region live' live'' middle contents ptr next ∧
        Grown region live live'' start next owned' := by
  rcases taken with ⟨_, placed⟩ | ⟨_, placed⟩
  · exact ⟨_, _, placed, grown.placedEmpty placed⟩
  · exact ⟨_, _, placed, grown.placed placed⟩

/-- The directory was scanned, its buffer requested and read through the cluster chain. -/
structure DirectoryFilled (volume : FatPrivate) (start kernel next : Kernel) (directory : Nat)
    (item : FatDirectoryItem) (entries : List (List UInt8)) (buffer : Nat) (out : List UInt8) :
    Prop where
  scanned : ScannedFrom start.drive (subdirectoryStart volume item) entries
  present : next.objs directory =
    some (.fatDirectory { item := buffer, total := liveCount entries })
  contents : next.objs buffer = some (.bytes (out ++
    (List.replicate (sizeofFatDirectoryItem * liveCount entries) 0).drop out.length))
  read : ∃ before after, Mounted volume before ∧ before.drive = start.drive ∧
    (fat16ReadInternal diskstreamerRead (i32 (fat16GetFirstCluster item)) 0
      (i32 (u32 ((liveCount entries : Int) * sizeofFatDirectoryItem)))).run before =
        .ok ((0, out), after)
  granted : kernel.heap.Grants (sizeofFatDirectoryItem * liveCount entries)

/-- **A directory that was filled.** -/
theorem fat16FillDirectory_filled (held : VolumeLive live volume start)
    (bounded : VolumeBounded volume start) (grown : Grown region live live' start kernel owned)
    (own : owned directory) (present : kernel.objs directory = some (.fatDirectory {}))
    (run : (fat16FillDirectory diskstreamerRead directory item).run kernel = .ok (0, next)) :
    ∃ entries buffer out,
      DirectoryFilled volume start kernel next directory item entries buffer out := by
  have reads := diskstreamerRead_readsStreams
  have held' := held.grown grown
  have sectorSize := (bounded.grown grown).sectorSize
  have apart : ∀ allocation ∈ live, allocation.ptr ≠ directory :=
    fun allocation member same => grown.fresh allocation member (same ▸ own)
  obtain ⟨home, inHome, atHome⟩ := grown.held directory own
  rw [fat16FillDirectory, Exec.bind_of_ok held'.loadPrivate_run] at run
  obtain ⟨total, counted, count, run⟩ := Exec.bind_eq_ok.mp run
  obtain ⟨only, _⟩ := fat16GetTotalItemsForDirectory_completed reads held' count
  obtain ⟨entries, scanned, rfl⟩ :=
    fat16GetTotalItemsForDirectory_ends held' sectorSize count
  have short := (liveCount_le entries).trans scanned.count_le
  rw [grown.drive] at scanned
  have here : counted.objs directory = some (.fatDirectory {}) := only.kept present rfl
  obtain ⟨_, value, present', typed, run⟩ := load_bind_eq_ok.mp run
  rw [here] at present'
  cases present'
  cases typed
  obtain ⟨_, run⟩ := store_bind_eq_ok.mp run
  obtain ⟨buffer, allocated, requested, run⟩ := Exec.bind_eq_ok.mp run
  have written := (grown.streams only).setObj apart (by rw [here]; rfl)
    (.fatDirectory { total := liveCount entries })
  rw [directorySize_eq short] at requested
  have here' : (counted.setObj directory (some (.fatDirectory
      { total := liveCount entries }))).objs directory = _ := Kernel.setObj_objs_self ..
  have small : sizeofFatDirectoryItem * liveCount entries ≤ 4294963200 := by
    unfold sizeofFatDirectoryItem
    omega
  rcases kmalloc_completed written.invariant small requested with ⟨rfl, rfl⟩ | taken
  · obtain ⟨_, value, present', typed, run⟩ := load_bind_eq_ok.mp run
    obtain ⟨_, run⟩ := store_bind_eq_ok.mp run
    rw [if_pos rfl] at run
    cases run
  obtain ⟨live'', owned', placed, grown'⟩ := written.requested taken
  have different : directory ≠ buffer := fun same => placed.fresh home inHome (atHome.trans same)
  have here'' : allocated.objs directory = some (.fatDirectory { total := liveCount entries }) := by
    rw [← atHome, placed.kept home inHome, atHome, here']
  obtain ⟨_, value, present', typed, run⟩ := load_bind_eq_ok.mp run
  rw [here''] at present'
  cases present'
  cases typed
  obtain ⟨present', run⟩ := store_bind_eq_ok.mp run
  rw [if_neg placed.notNull] at run
  obtain ⟨⟨res, out⟩, streamed, delivered, run⟩ := Exec.bind_eq_ok.mp run
  obtain ⟨_, final, wrote, done⟩ := Exec.bind_eq_ok.mp run
  cases done
  have only' := (fat16ReadInternal_streams reads _ _ _ _ _ streamed (.refl _) delivered).1
  have inside := only'.kept (Kernel.setObj_objs_self ..) rfl
  have full := only'.kept ((Kernel.setObj_objs_of_ne _ _ different.symm).trans placed.present) rfl
  obtain ⟨_, before, _, last⟩ := writeBytes_eq_ok wrote
  rw [full] at before
  cases before
  rw [List.take_zero, List.nil_append, Nat.zero_add] at last
  have final := grown'.setObj apart present'
    (.fatDirectory { item := buffer, total := liveCount entries })
  have heldFinal := held.grown final
  have boundedFinal := bounded.grown final
  have clusters : 1 ≤ volume.header.sectorsPerCluster := by
    by_contra none
    have divides := @fat16ReadInternal_divides _ _ diskstreamerRead
      ⟨boundedFinal.sectorSize, heldFinal.fsPrivate⟩ (by omega)
      (i32 (fat16GetFirstCluster item)) 0
      (i32 (u32 ((liveCount entries : Int) * sizeofFatDirectoryItem)))
    rw [delivered] at divides
    cases divides
  refine ⟨entries, buffer, out, scanned, ?_, ?_, ⟨_, _,
    boundedFinal.toMounted final.invariant heldFinal clusters, final.drive, delivered⟩, ?_⟩
  · rw [last]
    exact (Kernel.setObj_objs_of_ne _ _ different).trans inside
  · rw [last, Kernel.setObj_objs_self]
  · have granted := (kmalloc_granted written.invariant (by omega) _).mpr
      ⟨buffer, allocated, requested, placed.notNull⟩
    change counted.heap.Grants _ at granted
    rwa [only.heap] at granted

/-- The size that the code reads, when an `int` holds it. -/
theorem readSize_eq {count : Nat} (small : sizeofFatDirectoryItem * count < 2147483648) :
    i32 (u32 ((count : Int) * sizeofFatDirectoryItem)) =
      (sizeofFatDirectoryItem * count : Nat) := by
  unfold sizeofFatDirectoryItem u32 i32 at *
  omega

theorem DirectoryFilled.clusters {entries : List (List UInt8)} {buffer : Nat} {out : List UInt8}
    (filled : DirectoryFilled volume start kernel next directory item entries buffer out) :
    1 ≤ volume.header.sectorsPerCluster := by
  obtain ⟨_, _, mounted, _⟩ := filled.read
  exact mounted.clusterNotEmpty

/-- The chain of a directory that was filled was accepted. -/
theorem DirectoryFilled.chain {entries : List (List UInt8)} {buffer : Nat} {out : List UInt8}
    (filled : DirectoryFilled volume start kernel next directory item entries buffer out)
    (inv : KernelInvariant region live' kernel) :
    ChainAccepted volume start.drive (i32 (fat16GetFirstCluster item))
      (sizeofFatDirectoryItem * liveCount entries) := by
  obtain ⟨before, after, mounted, drive, delivered⟩ := filled.read
  have bounded := inv.heap.grantedSize filled.granted
  rw [readSize_eq bounded] at delivered
  have accepted := fat16ReadInternal_read mounted (by omega) delivered
  rwa [drive] at accepted

/-- **A directory is filled** when its scan ends, its buffer is granted and its chain is accepted:
with the bytes of the clusters of the chain, where these lie at positions that an `int` can hold. -/
theorem fat16FillDirectory_fills (held : VolumeLive live volume start)
    (mounted : Mounted volume start) (grown : Grown region live live' start kernel owned)
    (own : owned directory) (present : kernel.objs directory = some (.fatDirectory {}))
    {entries : List (List UInt8)}
    (scanned : ScannedFrom start.drive (subdirectoryStart volume item) entries)
    (granted : kernel.heap.Grants (sizeofFatDirectoryItem * liveCount entries))
    (chain : ChainAccepted volume start.drive (i32 (fat16GetFirstCluster item))
      (sizeofFatDirectoryItem * liveCount entries)) :
    ∃ buffer next, (fat16FillDirectory diskstreamerRead directory item).run kernel =
        .ok (0, next) ∧
      next.objs directory =
        some (.fatDirectory { item := buffer, total := liveCount entries }) ∧
      (ChainPlaced volume start.drive (i32 (fat16GetFirstCluster item)) 0
          (sizeofFatDirectoryItem * liveCount entries) →
        next.objs buffer = some (.bytes (window (chainByte volume start.drive
          (i32 (fat16GetFirstCluster item))) 0 (sizeofFatDirectoryItem * liveCount entries)))) := by
  have held' := held.grown grown
  have mounted' := mounted.grown held grown
  have apart : ∀ allocation ∈ live, allocation.ptr ≠ directory :=
    fun allocation member same => grown.fresh allocation member (same ▸ own)
  obtain ⟨home, inHome, atHome⟩ := grown.held directory own
  obtain ⟨counted, count, only⟩ := @fat16GetTotalItemsForDirectory_scanned _ _ _ held'
    mounted'.sectorSize (u32 (fat16ClusterToSector volume (i32 (fat16GetFirstCluster item))))
    entries (by rw [grown.drive]; exact scanned)
  have short := (liveCount_le entries).trans scanned.count_le
  have here : counted.objs directory = some (.fatDirectory {}) := only.kept present rfl
  have loaded : (load Obj.fatDirectory? directory).run counted = .ok (_, counted) :=
    load_of_obj here rfl
  have live₁ : (counted.objs directory).isSome := by
    rw [here]
    rfl
  have written := (grown.streams only).setObj apart live₁
    (.fatDirectory { total := liveCount entries })
  have bounded := grown.invariant.heap.grantedSize granted
  rw [← only.heap] at granted
  obtain ⟨buffer, allocated, requested, notNull⟩ := (kmalloc_granted written.invariant (by omega)
    (.bytes (List.replicate (sizeofFatDirectoryItem * liveCount entries) 0))).mp granted
  obtain ⟨live'', owned', placed, grown'⟩ := written.requested
    ((kmalloc_completed written.invariant (by omega) requested).resolve_left
      fun refused => notNull refused.1)
  have different : directory ≠ buffer := fun same => placed.fresh home inHome (atHome.trans same)
  have here' : allocated.objs directory = some (.fatDirectory { total := liveCount entries }) := by
    rw [← atHome, placed.kept home inHome, atHome, Kernel.setObj_objs_self]
  have loaded' : (load Obj.fatDirectory? directory).run allocated = .ok (_, allocated) :=
    load_of_obj here' rfl
  have live₂ : (allocated.objs directory).isSome := by
    rw [here']
    rfl
  have final := grown'.setObj apart live₂
    (.fatDirectory { item := buffer, total := liveCount entries })
  obtain ⟨out, streamed, delivered, length, exact⟩ := fat16ReadInternal_accepted
    (mounted.grown held final) (by rw [final.drive]; exact chain) (by omega)
  have only' := (fat16ReadInternal_streams diskstreamerRead_readsStreams _ _ _ _ _ streamed
    (.refl _) delivered).1
  have full := only'.kept ((Kernel.setObj_objs_of_ne _ _ different.symm).trans placed.present) rfl
  have inside := only'.kept (Kernel.setObj_objs_self ..) rfl
  obtain ⟨last, wrote, kept, filled⟩ : ∃ last,
      (writeBytes buffer 0 out).run streamed = .ok ((), last) ∧
        last.objs directory = streamed.objs directory ∧
        last.objs buffer = some (.bytes out) := by
    refine ⟨_, writeBytes_run full (by rw [Nat.zero_add, List.length_replicate, length]),
      Kernel.setObj_objs_of_ne _ _ different, ?_⟩
    rw [Kernel.setObj_objs_self, List.take_zero, List.nil_append, Nat.zero_add,
      List.drop_of_length_le (by rw [List.length_replicate, length]), List.append_nil]
  refine ⟨buffer, last, ?_, kept.trans inside, fun placed' => ?_⟩
  · rw [fat16FillDirectory, Exec.bind_of_ok held'.loadPrivate_run, Exec.bind_of_ok count,
      Exec.bind_of_ok loaded, Exec.bind_of_ok (store_of_live live₁)]
    dsimp only
    rw [directorySize_eq short, kzalloc, Exec.bind_of_ok requested, Exec.bind_of_ok loaded',
      Exec.bind_of_ok (store_of_live live₂), if_neg placed.notNull, readSize_eq bounded]
    refine (Exec.bind_of_ok delivered).trans ?_
    rw [Exec.bind_of_ok wrote, Exec.run_pure]
  · rw [final.drive] at exact
    rw [filled, exact placed']

/-- The load returns a directory that was filled. -/
theorem fat16LoadFatDirectory_filled {allocated : Kernel}
    (subdirectory : item.attributes &&& fatFileSubdirectory ≠ 0)
    (requested : (kmalloc sizeofFatDirectory (.fatDirectory {})).run kernel =
      .ok (directory, allocated)) (notNull : directory ≠ 0)
    (fill : (fat16FillDirectory diskstreamerRead directory item).run allocated = .ok (0, next)) :
    (fat16LoadFatDirectory diskstreamerRead item).run kernel = .ok (directory, next) := by
  rw [fat16LoadFatDirectory, if_neg subdirectory, kzalloc, Exec.bind_of_ok requested,
    if_neg notNull, Exec.bind_of_ok fill, if_neg (not_not.mpr rfl), Exec.run_pure]

theorem blocksFor_fatDirectory : blocksFor sizeofFatDirectory = 1 := by decide

end Fill

/-- The entry of a subdirectory that starts at cluster 2. -/
def subdirectoryEntry : List UInt8 :=
  List.replicate 11 68 ++ [0x10] ++ List.replicate 14 0 ++ [2, 0] ++ List.replicate 4 0

theorem subdirectoryEntry_cluster :
    i32 (fat16GetFirstCluster (FatDirectoryItem.decode subdirectoryEntry)) = (2 : Nat) := by decide

/-- A small volume with the given entries in its root directory is mounted. -/
structure SmallVolume (bytes : List (Nat × UInt8)) (entries : List (List UInt8))
    (live : List Allocation) (kernel : Kernel) (volume : FatPrivate) : Prop where
  invariant : KernelInvariant kernelHeapRegion live kernel
  held : VolumeLive live volume kernel
  bounded : VolumeBounded volume kernel
  ending : volume.rootDirectory.endingSectorPos = 3
  header : volume.header = FatHeader.decode (window (imageOf smallHeader) 0 sizeofFatH)
  room : kernel.heap.Room 6 25600
  drive : kernel.drive = imageOf (smallHeader ++ bytes)
  total : volume.rootDirectory.total = liveCount entries
  root : RootLive live volume kernel
  buffer : kernel.objs volume.rootDirectory.item =
    some (.bytes (window (imageOf (smallHeader ++ bytes)) 1024 512))

theorem smallVolume_boot (bytes : List (Nat × UInt8)) {entries : List (List UInt8)}
    (header : FatHeader.decode (window (imageOf (smallHeader ++ bytes)) 0 sizeofFatH) =
      FatHeader.decode (window (imageOf smallHeader) 0 sizeofFatH))
    (root : DirectoryAt (imageOf (smallHeader ++ bytes)) 1024 entries)
    (ends : entries.length < 16) :
    ∃ live kernel volume, SmallVolume bytes entries live kernel volume := by
  obtain ⟨live, kernel, volume, _, ready, same, room, globals⟩ :=
    fat16Resolve_boot bytes header root ends
  have sector : volume.rootSector = 2 := by
    rw [FatPrivate.rootSector, same]
    decide
  have size : volume.rootSize = 512 := by
    rw [FatPrivate.rootSize, same]
    decide
  have ending : volume.rootDirectory.endingSectorPos = 3 := by
    rw [ready.rootDirectory]
    change ((volume.rootSector + (volume.rootSize + 511) / 512 : Nat) : Int) = 3
    rw [sector, size]
    decide
  have drive : kernel.drive = imageOf (smallHeader ++ bytes) := by
    rw [globals]
    rfl
  have buffer := ready.buffer
  rw [sector, size, drive] at buffer
  exact ⟨live, kernel, volume, ready.invariant, ready.mounted, ⟨ready.sectorSize,
    by rw [same]; decide, by rw [same]; decide, by rw [ending]; decide⟩, ending, same, room, drive,
    by rw [ready.rootDirectory]; rfl, ⟨ready.mounted, ⟨_, buffer⟩, ready.held⟩, buffer⟩

namespace SmallVolume

variable {bytes : List (Nat × UInt8)} {entries : List (List UInt8)} {live : List Allocation}
  {kernel : Kernel} {volume : FatPrivate}

theorem clusterBytes (small : SmallVolume bytes entries live kernel volume) :
    clusterBytes volume = 512 := by
  unfold Peachos.clusterBytes
  rw [small.header]
  decide

theorem clusterPos (small : SmallVolume bytes entries live kernel volume) (cluster : Nat) :
    clusterPos volume cluster = ((cluster : Int) + 1) * 512 := by
  have one : (FatHeader.decode (window (imageOf smallHeader) 0 sizeofFatH)).sectorsPerCluster =
      1 := by decide
  unfold Peachos.clusterPos
  rw [small.ending, small.header, one]
  omega

theorem start (small : SmallVolume bytes entries live kernel volume) :
    subdirectoryStart volume (FatDirectoryItem.decode subdirectoryEntry) = 1536 := by
  unfold subdirectoryStart fat16ClusterToSector
  rw [small.ending, small.header]
  decide

/-- The links of the one sector of the table. -/
theorem fatLink (small : SmallVolume bytes entries live kernel volume) {cluster : Nat}
    (inside : cluster < 256) : fatLink volume kernel.drive cluster =
      some (littleEndian (window (imageOf (smallHeader ++ bytes)) (512 + 2 * cluster) 2)) := by
  have one : (FatHeader.decode (window (imageOf smallHeader) 0 sizeofFatH)).reservedSectors =
      1 := by decide
  have position : fatLinkPos volume cluster = (512 + 2 * cluster : Nat) := by
    unfold fatLinkPos u32 i32
    rw [small.header, one]
    omega
  unfold Peachos.fatLink
  rw [position, if_pos (.inl (Int.natCast_nonneg _)), bytesAt_small _ (by omega), small.drive]

end SmallVolume

end Peachos
