import Peachos.Fs.ClusterRead

/-! # Byte positions of clusters

The position of a cluster is computed in `int`, as its sector times the size of a sector. A volume
may be larger than the positions that an `int` holds: `byteExact_iff` says that the position is
right exactly below `2 ^ 31`.
-/

namespace Peachos

open CInt Window

/-- The sector that `diskstreamer_read` asks the disk for at a stream position. -/
def requestedSector (pos : Int) : Nat := ataSector (i32 (u32 (pos.tdiv peachosSectorSize)))

/-- A position that an `int` holds is in the sector that is asked for. -/
theorem requestedSector_eq {pos : Nat} (small : pos < 2147483648) :
    requestedSector pos = pos / 512 := by
  have sector : pos / 512 < 4194304 := by omega
  unfold requestedSector
  rw [show (pos : Int).tdiv peachosSectorSize = (pos / 512 : Nat) from rfl, u32_natCast (by omega),
    i32_natCast (by omega), ataSector_small (by omega)]

/-- The call reads from the sector it asks for. -/
theorem diskReadBlock_requestedSector (pos : Int) (kernel : Kernel) :
    (diskReadBlock .disk (u32 (pos.tdiv peachosSectorSize)) 1).run kernel =
      .ok ((0, window kernel.drive (requestedSector pos * peachosSectorSize)
        peachosSectorSize), kernel) := by
  rw [diskReadBlock, if_neg (not_not.mpr rfl), diskReadSector, Exec.bind_of_ok (Exec.run_read ..),
    Exec.run_pure]
  rfl

/-- The rest of a call of `fat16_read_internal_from_stream`, from its seek to `startingPos` on. -/
def fat16ReadPiece (read : StreamRead) (stream : Nat) (cluster : Int) (calls : Nat)
    (offset total clusterBytes startingPos : Int) : K (Int × List UInt8) := do
  let totalToRead := if total > clusterBytes then clusterBytes else total
  let res ← diskstreamerSeek stream startingPos
  if res ≠ peachosAllOk then pure (res, [])
  else do
    let (res, out) ← read stream totalToRead
    if res ≠ peachosAllOk then pure (res, out)
    else if total - totalToRead > 0 then do
      let (res, rest) ← fat16ReadInternalCalls read stream cluster calls
        (i32 (offset + totalToRead)) (total - totalToRead)
      pure (res, out ++ rest)
    else pure (res, out)

/-- A call walks to the cluster of its offset, and then seeks to the position that it computes. -/
theorem fat16ReadInternalCalls_piece (read : StreamRead) (stream : Nat) (cluster : Int)
    (calls : Nat) (offset total : Int) :
    fat16ReadInternalCalls read stream cluster (calls + 1) offset total = (do
      let fatPrivate ← loadPrivate
      let disk ← Exec.read Kernel.disk
      let clusterToUse ← fat16GetClusterForOffset read cluster offset
      if clusterToUse < 0 then pure (clusterToUse, [])
      else do
        let offsetFromCluster ← remainder offset (sizeOfClusterBytes fatPrivate disk)
        fat16ReadPiece read stream cluster calls offset total (sizeOfClusterBytes fatPrivate disk)
          (i32 (i32 (fat16ClusterToSector fatPrivate clusterToUse * disk.sectorSize) +
            offsetFromCluster))) :=
  rfl

/-- For every reader that delivers the entries of the table, a call for the file offset `position`
hands `pos` to `diskstreamer_seek`. -/
def SeeksTo (volume : FatPrivate) (kernel : Kernel) (first position : Nat) (pos : Int) : Prop :=
  ∀ read request, Delivers read request → EntryRequests request → ∀ (calls : Nat) (total : Int),
    ∃ walked, OnlyStreams kernel walked ∧
      (fat16ReadInternalCalls read volume.clusterReadStream first (calls + 1) position total).run
          kernel =
        (fat16ReadPiece read volume.clusterReadStream first calls position total
          (clusterBytes volume) pos).run walked

/-- The position of `position`, which is in the cluster `cluster`, as an exact integer. -/
def bytePos (volume : FatPrivate) (cluster position : Nat) : Int :=
  clusterPos volume cluster + (position % clusterBytes volume : Nat)

/-- The code computes the exact position and holds it in an `int` that is not negative, and the
sector that it asks for is the one with that byte. -/
structure ByteExact (volume : FatPrivate) (kernel : Kernel) (first position cluster : Nat) :
    Prop where
  seeks : SeeksTo volume kernel first position (bytePos volume cluster position)
  nonnegative : 0 ≤ bytePos volume cluster position
  sector : (requestedSector (bytePos volume cluster position) : Int) =
    bytePos volume cluster position / 512

section Positions

variable {volume : FatPrivate} {kernel : Kernel} {first position cluster : Nat}

/-- The position that the code computes. -/
def computedPos (volume : FatPrivate) (kernel : Kernel) (cluster position : Nat) : Int :=
  i32 (i32 (fat16ClusterToSector volume cluster * kernel.disk.sectorSize) +
    (position % clusterBytes volume : Nat))

/-- The code seeks to what it computes. -/
theorem seeksTo_computedPos (mounted : Mounted volume kernel) (small : first < 65536)
    (accepted : Accepted volume kernel.drive first (position / clusterBytes volume)) :
    SeeksTo volume kernel first position (computedPos volume kernel
      (fatChain volume kernel.drive first (position / clusterBytes volume)) position) := by
  intro read request delivers entries calls total
  obtain ⟨walked, walk, only⟩ :=
    fat16GetClusterForOffset_run delivers entries mounted small position
  rw [if_pos accepted] at walk
  refine ⟨walked, only, ?_⟩
  rw [fat16ReadInternalCalls_piece, Exec.bind_of_ok (loadPrivate_run mounted),
    Exec.bind_of_ok (Exec.run_read _ _), Exec.bind_of_ok walk, if_neg (by omega),
    sizeOfClusterBytes_eq mounted, Exec.bind_of_ok (remainder_run (clusterBytes_positive mounted))]
  rfl

/-- A reader of the entries of the table, which stops at any other request with its position. -/
def positionReader : StreamRead := fun stream total => do
  let value ← load Obj.diskStream? stream
  if total = 2 then do
    let drive ← Exec.read Kernel.drive
    store stream (.diskStream { value with pos := i32 (value.pos + total) })
    pure (0, window drive value.pos.toNat total.toNat)
  else Exec.fault (.bufferIndex value.pos)

theorem positionReader_delivers : Delivers positionReader fun _ total => total = 2 := by
  rintro kernel stream pos total rfl present
  have loaded : (load Obj.diskStream? stream).run kernel = .ok (_, kernel) :=
    load_of_obj present rfl
  rw [positionReader, Exec.bind_of_ok loaded, if_pos (show ((2 : Nat) : Int) = 2 from rfl),
    Exec.bind_of_ok (Exec.run_read _ _), Exec.bind_of_ok (store_of_live (by rw [present]; rfl)),
    Exec.run_pure]
  rfl

/-- What the reader shows. -/
theorem fat16ReadPiece_position {walked : Kernel} {stream : Nat} (on : OnDisk walked stream)
    (cluster : Int) (calls : Nat) (offset clusterBytes pos : Int) (notEmpty : 1 ≤ clusterBytes) :
    (fat16ReadPiece positionReader stream cluster calls offset 1 clusterBytes pos).run walked =
      .error (.bufferIndex pos) := by
  obtain ⟨value, present, disk⟩ := on
  have loaded : (load Obj.diskStream? stream).run walked = .ok (value, walked) :=
    load_of_obj present rfl
  have seek : (diskstreamerSeek stream pos).run walked =
      .ok (0, walked.setObj stream (some (.diskStream { value with pos := pos }))) := by
    rw [diskstreamerSeek, Exec.bind_of_ok loaded,
      Exec.bind_of_ok (store_of_live (by rw [present]; rfl)), Exec.run_pure]
  have sought : (load Obj.diskStream? stream).run
      (walked.setObj stream (some (.diskStream { value with pos := pos }))) = .ok (_, _) :=
    load_of_obj (Kernel.setObj_objs_self ..) rfl
  rw [fat16ReadPiece]
  dsimp only
  rw [if_neg (by omega), Exec.bind_of_ok seek, if_neg (not_not.mpr rfl)]
  refine Exec.bind_of_error ?_
  rw [positionReader, Exec.bind_of_ok sought, if_neg (by decide), Exec.run_fault]

/-- A call seeks to one position. -/
theorem SeeksTo.unique (mounted : Mounted volume kernel) {pos pos' : Int}
    (seeks : SeeksTo volume kernel first position pos)
    (seeks' : SeeksTo volume kernel first position pos') : pos = pos' := by
  have notEmpty : (1 : Int) ≤ clusterBytes volume := by
    have positive := clusterBytes_positive mounted
    omega
  have entries : EntryRequests fun _ total => total = 2 := fun _ _ _ => rfl
  obtain ⟨walked, only, run⟩ := seeks positionReader _ positionReader_delivers entries 0 1
  obtain ⟨walked', only', run'⟩ := seeks' positionReader _ positionReader_delivers entries 0 1
  rw [fat16ReadPiece_position (mounted.of_onlyStreams only).clusterReadStream _ _ _ _ _ notEmpty]
    at run
  rw [run, fat16ReadPiece_position (mounted.of_onlyStreams only').clusterReadStream _ _ _ _ _
    notEmpty] at run'
  cases run'
  rfl

/-- **Byte positions.** For every mounted volume and every offset of a data cluster of a chain that
the code accepts up to there, the position is exact if and only if it is below `2 ^ 31`. -/
theorem byteExact_iff (mounted : Mounted volume kernel) (small : first < 65536)
    (accepted : Accepted volume kernel.drive first (position / clusterBytes volume))
    (reached : fatChain volume kernel.drive first (position / clusterBytes volume) = cluster)
    (data : DataCluster cluster) :
    ByteExact volume kernel first position cluster ↔
      bytePos volume cluster position < 2147483648 := by
  have seeks := seeksTo_computedPos mounted small accepted
  rw [reached] at seeks
  constructor
  · intro exact
    rw [exact.seeks.unique mounted seeks]
    exact i32_upper _
  · intro below
    have ahead := mounted.dataAfterRoot
    have lower : 0 ≤ clusterPos volume cluster := by
      have product : 0 ≤ ((cluster : Int) - 2) * volume.header.sectorsPerCluster :=
        Int.mul_nonneg (by unfold DataCluster at data; omega) (by omega)
      unfold clusterPos
      omega
    have nonnegative : 0 ≤ bytePos volume cluster position := by
      unfold bytePos
      omega
    refine ⟨?_, nonnegative, ?_⟩
    · have computed : computedPos volume kernel cluster position =
          bytePos volume cluster position :=
        clusterPos_eq mounted lower below
      rw [← computed]
      exact seeks
    · obtain ⟨exact, same⟩ := Int.eq_ofNat_of_zero_le nonnegative
      rw [same] at below ⊢
      rw [requestedSector_eq (by omega)]
      omega

end Positions

/-- The first byte of cluster 3 of the small volume. -/
theorem byteExact_small :
    ByteExact smallVolume (smallVolumeKernel fun pos => if pos = 516 then 3 else 0) 2 512 3 :=
  (byteExact_iff (smallVolume_mounted _) (by decide) (by decide) (by decide) (by decide)).mpr
    (by decide)

/-- The volume of the header in `boot.asm`: 128 sectors a cluster, and 7812500 sectors. -/
def bootVolume : FatPrivate where
  header := {
    sectorsPerCluster := 0x80
    reservedSectors := 200
    fatCopies := 2
    rootDirEntries := 0x40
    sectorsPerFat := 0x100
    sectorsBig := 0x773594
    signature := 0x29 }
  rootDirectory := { sectorPos := 712, endingSectorPos := 716 }
  clusterReadStream := 8192
  fatReadStream := 12288

/-- The volume of `boot.asm`, mounted. -/
def bootVolumeKernel : Kernel where
  heap := { table := { entries := [] }, saddr := 0 }
  disk := { fsPrivate := 4096, filesystem := some .fat16 }
  objs ptr :=
    if ptr = 4096 then some (.fatPrivate bootVolume)
    else if ptr = 8192 ∨ ptr = 12288 then some (streamAt 0)
    else none

theorem bootVolume_mounted : Mounted bootVolume bootVolumeKernel where
  sectorSize := rfl
  fsPrivate := rfl
  clusterReadStream := ⟨_, rfl, rfl⟩
  fatReadStream := ⟨_, rfl, rfl⟩
  fatReadNotNull := by decide
  reservedSectors := by decide
  sectorsPerCluster := by decide
  clusterNotEmpty := by decide
  dataAfterRoot := by decide

/-- The sectors of cluster 40000 of that volume lie below `sectors_big`, and the position of its
first byte is wrong. -/
theorem byteExact_bootVolume :
    DataCluster 40000 ∧ (bootVolume.rootDirectory.endingSectorPos + (40000 - 2) * 0x80 + 0x80 ≤
      (bootVolume.header.sectorsBig : Int)) ∧
      ¬ ByteExact bootVolume bootVolumeKernel 40000 0 40000 := by
  refine ⟨by decide, by decide, fun exact => ?_⟩
  have seeks := @seeksTo_computedPos bootVolume bootVolumeKernel 40000 0 bootVolume_mounted
    (by decide) (fun link before => absurd before (Nat.not_lt_zero link))
  exact absurd (exact.seeks.unique bootVolume_mounted seeks) (by decide)

end Peachos
