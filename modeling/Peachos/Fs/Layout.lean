import Mathlib
import Peachos.Fs.Mount

/-! # The layout of a volume

The reserved sectors come first, then the tables, the root directory and the clusters. Whatever the
header says, a completed `fat16_get_root_directory` leaves a volume on which no two of these regions
meet (`fat16GetRootDirectory_layout`).
-/

namespace Peachos

open CInt

section Sectors

/-- The `count` sectors from `first` on. -/
def sectorsFrom (first count : Int) : Set Int := Set.Ico first (first + count)

/-- Regions that follow each other do not meet. -/
theorem sectorsFrom_disjoint {first second count : Int} (after : first + count ≤ second)
    (count' : Int) : Disjoint (sectorsFrom first count) (sectorsFrom second count') := by
  apply Set.Ico_disjoint_Ico.mpr
  exact (min_le_left _ _).trans (after.trans (le_max_right _ _))

/-- Regions of one size at multiples of that size do not meet. -/
theorem sectorsFrom_multiples {base count : Int} (nonnegative : 0 ≤ count) {i j : Int}
    (different : i ≠ j) :
    Disjoint (sectorsFrom (base + i * count) count) (sectorsFrom (base + j * count) count) := by
  rcases lt_or_gt_of_ne different with less | greater
  · apply sectorsFrom_disjoint
    have whole := mul_le_mul_of_nonneg_right (Int.add_one_le_of_lt less) nonnegative
    rw [Int.add_mul, Int.one_mul] at whole
    omega
  · apply Disjoint.symm
    apply sectorsFrom_disjoint
    have whole := mul_le_mul_of_nonneg_right (Int.add_one_le_of_lt greater) nonnegative
    rw [Int.add_mul, Int.one_mul] at whole
    omega

end Sectors

/-- The fields have the widths that `struct fat_header` gives them. -/
structure HeaderFields (header : FatHeader) : Prop where
  sectorsPerCluster : header.sectorsPerCluster < 256
  reservedSectors : header.reservedSectors < 65536
  fatCopies : header.fatCopies < 256
  rootDirEntries : header.rootDirEntries < 65536
  sectorsPerFat : header.sectorsPerFat < 65536

/-- Every boot sector gives such a header. -/
theorem FatHeader.decode_fields (boot : List UInt8) : HeaderFields (FatHeader.decode boot) where
  sectorsPerCluster := littleEndian_take_lt (boot.drop 13) 1
  reservedSectors := littleEndian_take_lt (boot.drop 14) 2
  fatCopies := littleEndian_take_lt (boot.drop 16) 1
  rootDirEntries := littleEndian_take_lt (boot.drop 17) 2
  sectorsPerFat := littleEndian_take_lt (boot.drop 22) 2

/-- The value fits an `int`. -/
def IntRange (value : Int) : Prop := -2147483648 ≤ value ∧ value < 2147483648

namespace FatPrivate

variable (volume : FatPrivate)

def reservedRegion : Set Int := sectorsFrom 0 volume.header.reservedSectors

/-- A copy of the file allocation table. -/
def tableRegion (copy : Nat) : Set Int :=
  sectorsFrom (fat16GetFirstFatSector volume + copy * volume.header.sectorsPerFat)
    volume.header.sectorsPerFat

/-- The sectors with a byte of the root directory. -/
def rootRegion : Set Int :=
  {sector | volume.rootSector ≤ sector ∧ sector * 512 < volume.rootSector * 512 + volume.rootSize}

def clusterRegion (cluster : Int) : Set Int :=
  sectorsFrom (fat16ClusterToSector volume cluster) volume.header.sectorsPerCluster

end FatPrivate

/-- The numbers of data clusters that a table entry can hold. -/
def ClusterNumber (cluster : Int) : Prop := 2 ≤ cluster ∧ cluster ≤ 0xFFFF

/-- The regions of the volume do not meet, and its sector numbers are those of the drive. -/
structure SectorLayout (volume : FatPrivate) : Prop where
  clusters : ∀ first second, ClusterNumber first → ClusterNumber second → first ≠ second →
    Disjoint (volume.clusterRegion first) (volume.clusterRegion second)
  reserved : ∀ cluster, ClusterNumber cluster →
    Disjoint (volume.clusterRegion cluster) volume.reservedRegion
  tables : ∀ cluster, ClusterNumber cluster → ∀ copy < volume.header.fatCopies,
    Disjoint (volume.clusterRegion cluster) (volume.tableRegion copy)
  rootDirectory : ∀ cluster, ClusterNumber cluster →
    Disjoint (volume.clusterRegion cluster) volume.rootRegion
  /-- The operations of `fat16_get_root_directory`. -/
  rootComputed : IntRange (volume.header.fatCopies * volume.header.sectorsPerFat) ∧
    IntRange volume.rootDirectory.sectorPos ∧ IntRange volume.rootDirectory.endingSectorPos
  /-- The operations of `fat16_cluster_to_sector`. -/
  clusterComputed : ∀ cluster, ClusterNumber cluster →
    IntRange (cluster - 2) ∧ IntRange ((cluster - 2) * volume.header.sectorsPerCluster) ∧
    fat16ClusterToSector volume cluster = volume.rootDirectory.endingSectorPos +
      (cluster - 2) * volume.header.sectorsPerCluster
  below : ∀ cluster, ClusterNumber cluster → ∀ sector ∈ volume.clusterRegion cluster,
    0 ≤ sector ∧ sector < 268435456
  rootBelow : ∀ sector ∈ volume.rootRegion, 0 ≤ sector ∧ sector < 268435456

section Regions

variable {volume : FatPrivate}

/-- The root directory of the volume is where its header says. -/
structure RootSectors (volume : FatPrivate) : Prop where
  sectorPos : volume.rootDirectory.sectorPos = volume.rootSector
  endingSectorPos : volume.rootDirectory.endingSectorPos =
    (volume.rootSector + (volume.rootSize + 511) / 512 : Nat)

theorem HeaderFields.rootSector (fields : HeaderFields volume.header) :
    volume.header.fatCopies * volume.header.sectorsPerFat ≤ 16711425 ∧
      volume.rootSector ≤ 16776960 := by
  have product : volume.header.fatCopies * volume.header.sectorsPerFat ≤ 255 * 65535 :=
    Nat.mul_le_mul (Nat.le_of_lt_succ fields.fatCopies) (Nat.le_of_lt_succ fields.sectorsPerFat)
  have reserved := fields.reservedSectors
  unfold FatPrivate.rootSector
  omega

theorem HeaderFields.ending (fields : HeaderFields volume.header) (root : RootSectors volume) :
    volume.rootSector ≤ volume.rootDirectory.endingSectorPos ∧
      volume.rootDirectory.endingSectorPos ≤ 16781056 := by
  have sector := fields.rootSector.2
  have entries := fields.rootDirEntries
  have ending := root.endingSectorPos
  unfold FatPrivate.rootSize sizeofFatDirectoryItem at ending
  omega

/-- The sectors before a cluster. -/
theorem HeaderFields.cluster (fields : HeaderFields volume.header) {cluster : Int}
    (number : ClusterNumber cluster) :
    0 ≤ (cluster - 2) * volume.header.sectorsPerCluster ∧
      (cluster - 2) * volume.header.sectorsPerCluster ≤ 16710915 := by
  obtain ⟨lower, upper⟩ := number
  have size := fields.sectorsPerCluster
  constructor
  · exact mul_nonneg (by omega) (by omega)
  · calc (cluster - 2) * volume.header.sectorsPerCluster
        ≤ 65533 * volume.header.sectorsPerCluster :=
          mul_le_mul_of_nonneg_right (by omega) (by omega)
      _ ≤ 16710915 := by omega

/-- `fat16_cluster_to_sector` computes without overflow. -/
theorem HeaderFields.clusterToSector (fields : HeaderFields volume.header)
    (root : RootSectors volume) {cluster : Int} (number : ClusterNumber cluster) :
    fat16ClusterToSector volume cluster = volume.rootDirectory.endingSectorPos +
      (cluster - 2) * volume.header.sectorsPerCluster := by
  have ending := fields.ending root
  have before := fields.cluster number
  obtain ⟨lower, upper⟩ := number
  have narrow : i32 (cluster - 2) = cluster - 2 := i32_of_range (by omega) (by omega)
  rw [fat16ClusterToSector, narrow, @i32_of_range (_ * _) (by omega) (by omega),
    i32_of_range (by omega) (by omega)]

/-- What ends before the clusters does not meet them. -/
theorem HeaderFields.apart (fields : HeaderFields volume.header) (root : RootSectors volume)
    {cluster : Int} (number : ClusterNumber cluster) {region : Set Int}
    (before : ∀ sector ∈ region, sector < volume.rootDirectory.endingSectorPos) :
    Disjoint (volume.clusterRegion cluster) region := by
  have behind := (fields.cluster number).1
  refine Set.disjoint_left.mpr fun sector inside there => ?_
  rw [FatPrivate.clusterRegion, fields.clusterToSector root number] at inside
  have first := inside.1
  have last := before sector there
  omega

/-- **The layout.** -/
theorem HeaderFields.layout (fields : HeaderFields volume.header) (root : RootSectors volume) :
    SectorLayout volume := by
  obtain ⟨product, rootSector⟩ := fields.rootSector
  obtain ⟨above, atMost⟩ := fields.ending root
  have sum : volume.rootSector = volume.header.fatCopies * volume.header.sectorsPerFat +
    volume.header.reservedSectors := rfl
  refine ⟨?_, ?_, ?_, ?_, ⟨?_, ?_, ?_⟩, ?_, ?_, ?_⟩
  · intro first second number number' different
    rw [FatPrivate.clusterRegion, FatPrivate.clusterRegion, fields.clusterToSector root number,
      fields.clusterToSector root number']
    exact sectorsFrom_multiples (by omega) fun same => different (by omega)
  · intro cluster number
    apply fields.apart root number
    rintro sector ⟨_, last⟩
    omega
  · intro cluster number copy inside
    apply fields.apart root number
    rintro sector ⟨_, last⟩
    have tables : (copy + 1) * volume.header.sectorsPerFat ≤
        volume.header.fatCopies * volume.header.sectorsPerFat := Nat.mul_le_mul_right _ inside
    rw [Nat.succ_mul] at tables
    rw [fat16GetFirstFatSector, ← Int.natCast_mul] at last
    omega
  · intro cluster number
    apply fields.apart root number
    rintro sector ⟨_, last⟩
    have ending := root.endingSectorPos
    omega
  · rw [← Int.natCast_mul]
    unfold IntRange
    omega
  · rw [root.sectorPos]
    unfold IntRange
    omega
  · unfold IntRange
    omega
  · intro cluster number
    have before := fields.cluster number
    refine ⟨?_, ?_, fields.clusterToSector root number⟩
    · obtain ⟨lower, upper⟩ := number
      unfold IntRange
      omega
    · unfold IntRange
      omega
  · intro cluster number sector inside
    have before := fields.cluster number
    have size := fields.sectorsPerCluster
    rw [FatPrivate.clusterRegion, fields.clusterToSector root number] at inside
    obtain ⟨first, last⟩ := inside
    omega
  · rintro sector ⟨first, last⟩
    have ending := root.endingSectorPos
    omega

end Regions

section Load

variable {region : KernelRegion} {live : List Allocation} {kernel next : Kernel}
  {volume : FatPrivate} {read : StreamRead}

/-- The scan moves streams and nothing else. -/
theorem fat16GetTotalItemsForDirectory_streams {start : Kernel} (reads : ReadsStreams read)
    (sector : Nat) : Exec.Ensures (OnlyStreams start) (fat16GetTotalItemsForDirectory read sector)
      fun _ => True := by
  have loop : ∀ (stream fuel : Nat) (i : Int), Exec.Ensures (OnlyStreams start)
      (fat16GetTotalItemsLoop read stream fuel i) fun _ => True := by
    intro stream fuel
    induction fuel with
    | zero => exact fun _ => .fault _
    | succ fuel ih =>
        intro i
        refine .bind (reads.moves _ _ _) fun result _ => ?_
        refine .ite (fun _ => .pure trivial) fun _ => ?_
        refine .ite (fun _ => .pure trivial) fun _ => ?_
        exact .ite (fun _ => ih _) fun _ => ih _
  refine .bind loadPrivate_streams fun volume _ => ?_
  refine .bind readDisk_streams fun disk _ => ?_
  refine .bind (diskstreamerSeek_streams _ _) fun _ _ => ?_
  exact .ite (fun _ => .pure trivial) fun _ => loop _ _ _

/-- A completed load keeps the header and says where the root directory is. -/
theorem fat16GetRootDirectory_sectors (reads : ReadsStreams read)
    (inv : KernelInvariant region live kernel)
    (sectorSize : kernel.disk.sectorSize = peachosSectorSize) {fatPrivate : Nat}
    (held : ∃ allocation ∈ live, allocation.ptr = fatPrivate)
    (here : kernel.objs fatPrivate = some (.fatPrivate volume)) (fields : HeaderFields volume.header)
    (run : (fat16GetRootDirectory read fatPrivate).run kernel = .ok (0, next)) :
    ∃ volume', next.objs fatPrivate = some (.fatPrivate volume') ∧
      volume'.header = volume.header ∧ RootSectors volume' := by
  have sector := fields.rootSector.2
  have entries := fields.rootDirEntries
  have size : volume.rootSize = sizeofFatDirectoryItem * volume.header.rootDirEntries := rfl
  unfold sizeofFatDirectoryItem at size
  obtain ⟨allocation, member, rfl⟩ := held
  obtain ⟨_, counted, dir, allocated, streamed, _, wrote, value, count, requested, notNull, moved,
    write, present, rfl⟩ := fat16GetRootDirectory_steps reads sectorSize here (by omega) run
  obtain ⟨only, _⟩ := fat16GetTotalItemsForDirectory_streams reads _ kernel _ counted (.refl _) count
  have placed : allocation.ptr ≠ dir ∧
      allocated.objs allocation.ptr = counted.objs allocation.ptr := by
    rcases kmalloc_completed (only.invariant inv) (by omega) requested with
      ⟨null, _⟩ | ⟨_, placed⟩ | ⟨_, placed⟩
    · exact absurd null notNull
    · exact ⟨placed.fresh allocation member, placed.kept allocation member⟩
    · exact ⟨placed.fresh allocation member, placed.kept allocation member⟩
  have streamedHere := moved.kept (placed.2.trans (only.kept here rfl)) rfl
  obtain ⟨_, _, _, same⟩ := writeBytes_eq_ok write
  rw [same, Kernel.setObj_objs_of_ne _ _ placed.1, streamedHere] at present
  cases present
  exact ⟨_, Kernel.setObj_objs_self .., rfl, rfl, rfl⟩

/-- **The layout of every volume.** -/
theorem fat16GetRootDirectory_layout (inv : KernelInvariant region live kernel)
    (sectorSize : kernel.disk.sectorSize = peachosSectorSize) {fatPrivate : Nat}
    (held : ∃ allocation ∈ live, allocation.ptr = fatPrivate)
    (here : kernel.objs fatPrivate = some (.fatPrivate volume)) (fields : HeaderFields volume.header)
    (run : (fat16GetRootDirectory diskstreamerRead fatPrivate).run kernel = .ok (0, next)) :
    ∃ volume', next.objs fatPrivate = some (.fatPrivate volume') ∧
      volume'.header = volume.header ∧ SectorLayout volume' := by
  obtain ⟨volume', there, same, root⟩ := fat16GetRootDirectory_sectors diskstreamerRead_readsStreams
    inv sectorSize held here fields run
  exact ⟨volume', there, same, HeaderFields.layout (same ▸ fields) root⟩

/-- The root directory of the small volume, once more. -/
theorem fat16GetRootDirectory_layout_boot : ∃ fatPrivate kernel next volume,
    (fat16GetRootDirectory diskstreamerRead fatPrivate).run kernel = .ok (0, next) ∧
      next.objs fatPrivate = some (.fatPrivate volume) ∧ SectorLayout volume := by
  obtain ⟨live, kernel, volume, _, ready, same, room, _⟩ :=
    @fat16Resolve_boot [] [] rfl (by decide) (by decide)
  have size : volume.rootSize = 512 := by
    unfold FatPrivate.rootSize
    rw [same]
    decide
  obtain ⟨_, next, _, run, _⟩ := ready.reload room (by rw [size]; decide)
  obtain ⟨volume', there, _, layout⟩ := fat16GetRootDirectory_layout ready.invariant
    ready.sectorSize ready.mounted.privateHeld ready.mounted.fsPrivate
    (same ▸ FatHeader.decode_fields _) run
  exact ⟨_, kernel, next, volume', run, there, layout⟩

end Load

end Peachos
