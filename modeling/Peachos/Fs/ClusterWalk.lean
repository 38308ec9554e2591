import Peachos.Disk.StreamerSpec
import Peachos.Fs.Fat16

/-! # The walk along the file allocation table

On a mounted volume the entry of a cluster is a fixed two-byte word of the disk, so the
clusters of a file are the iterates of one function. `fat16GetClusterForOffset_run` says
which of them the code returns, and `clusterForOffset_correct_iff` for which chains that
is what the FAT16 cluster numbers mean.
-/

namespace Peachos

open CInt Window

/-- The two states differ in the positions of streams only. -/
structure OnlyStreams (kernel next : Kernel) : Prop where
  globals : next = { kernel with objs := next.objs }
  moved : ∀ ptr, next.objs ptr = kernel.objs ptr ∨ ∃ before after : DiskStream,
    kernel.objs ptr = some (.diskStream before) ∧ next.objs ptr = some (.diskStream after) ∧
      after.disk = before.disk

namespace OnlyStreams

variable {kernel middle next : Kernel}

theorem refl (kernel : Kernel) : OnlyStreams kernel kernel := ⟨rfl, fun _ => .inl rfl⟩

theorem trans (first : OnlyStreams kernel middle) (second : OnlyStreams middle next) :
    OnlyStreams kernel next := by
  refine ⟨by rw [second.globals, first.globals], fun ptr => ?_⟩
  rcases first.moved ptr with same | ⟨before, between, started, stopped, disk⟩
  · rw [← same]
    exact second.moved ptr
  · rcases second.moved ptr with same | ⟨between', after, started', stopped', disk'⟩
    · exact .inr ⟨before, between, started, same.trans stopped, disk⟩
    · rw [stopped] at started'
      cases started'
      exact .inr ⟨before, after, started, stopped', disk'.trans disk⟩

theorem drive (only : OnlyStreams kernel next) : next.drive = kernel.drive :=
  by rw [only.globals]

theorem disk (only : OnlyStreams kernel next) : next.disk = kernel.disk :=
  by rw [only.globals]

/-- An object that is not a stream stays. -/
theorem kept (only : OnlyStreams kernel next) {ptr : Nat} {contents : Obj}
    (present : kernel.objs ptr = some contents) (other : contents.diskStream? = none) :
    next.objs ptr = some contents := by
  rcases only.moved ptr with same | ⟨before, after, started, _, _⟩
  · rw [same, present]
  · rw [present] at started
    cases started
    cases other

/-- Moving a stream. -/
theorem setObj {stream : Nat} {before after : DiskStream}
    (present : kernel.objs stream = some (.diskStream before)) (disk : after.disk = before.disk) :
    OnlyStreams kernel (kernel.setObj stream (some (.diskStream after))) := by
  refine ⟨rfl, fun ptr => ?_⟩
  by_cases same : ptr = stream
  · rw [same]
    exact .inr ⟨before, after, present, Kernel.setObj_objs_self .., disk⟩
  · exact .inl (Kernel.setObj_objs_of_ne _ _ same)

end OnlyStreams

/-- The pointer is to a stream of the disk. -/
def OnDisk (kernel : Kernel) (stream : Nat) : Prop :=
  ∃ value, kernel.objs stream = some (.diskStream value) ∧ value.disk = .disk

theorem OnDisk.of_onlyStreams {kernel next : Kernel} {stream : Nat} (on : OnDisk kernel stream)
    (only : OnlyStreams kernel next) : OnDisk next stream := by
  obtain ⟨value, present, disk⟩ := on
  rcases only.moved stream with same | ⟨before, after, started, stopped, same⟩
  · exact ⟨value, same.trans present, disk⟩
  · rw [present] at started
    cases started
    exact ⟨after, stopped, same.trans disk⟩

/-- The volume with the private structure `volume` is mounted on the disk: its sectors are of
512 bytes, a cluster has at least one of them, and its streams read the disk. -/
structure Mounted (volume : FatPrivate) (kernel : Kernel) : Prop where
  sectorSize : kernel.disk.sectorSize = peachosSectorSize
  fsPrivate : kernel.objs kernel.disk.fsPrivate = some (.fatPrivate volume)
  clusterReadStream : OnDisk kernel volume.clusterReadStream
  fatReadStream : OnDisk kernel volume.fatReadStream
  fatReadNotNull : volume.fatReadStream ≠ 0
  reservedSectors : volume.header.reservedSectors < 65536
  sectorsPerCluster : volume.header.sectorsPerCluster < 256
  clusterNotEmpty : 1 ≤ volume.header.sectorsPerCluster
  dataAfterRoot : 0 ≤ volume.rootDirectory.endingSectorPos

/-- The position of the table entry of a cluster. -/
def fatEntryPos (volume : FatPrivate) (cluster : Nat) : Nat :=
  volume.header.reservedSectors * 512 + 2 * cluster

/-- The table entry of a cluster, `FAT[cluster]`. -/
def fatEntry (volume : FatPrivate) (drive : Nat → UInt8) (cluster : Nat) : Nat :=
  littleEndian (window drive (fatEntryPos volume cluster) 2)

/-- The clusters of a file: `c(0)` is its first one, and `c(k+1)` is `FAT[c(k)]`. -/
def fatChain (volume : FatPrivate) (drive : Nat → UInt8) (first : Nat) : Nat → Nat
  | 0 => first
  | link + 1 => fatEntry volume drive (fatChain volume drive first link)

theorem fatEntry_lt (volume : FatPrivate) (drive : Nat → UInt8) (cluster : Nat) :
    fatEntry volume drive cluster < 65536 := by
  have low := (drive (fatEntryPos volume cluster)).toNat_lt
  have high := (drive (fatEntryPos volume cluster + 1)).toNat_lt
  unfold fatEntry littleEndian
  rw [window_succ, window_succ, window_zero]
  simp only [List.foldr_cons, List.foldr_nil]
  omega

/-- The rest of a chain is the chain of its next cluster. -/
theorem fatChain_succ (volume : FatPrivate) (drive : Nat → UInt8) (first link : Nat) :
    fatChain volume drive first (link + 1) =
      fatChain volume drive (fatEntry volume drive first) link := by
  induction link with
  | zero => rfl
  | succ link ih => rw [fatChain, ih, fatChain]

section Walk

variable {read : StreamRead} {request : Nat → Nat → Prop} {volume : FatPrivate} {kernel : Kernel}

theorem Mounted.of_onlyStreams (mounted : Mounted volume kernel) {next : Kernel}
    (only : OnlyStreams kernel next) : Mounted volume next where
  sectorSize := by rw [only.disk]; exact mounted.sectorSize
  fsPrivate := by rw [only.disk]; exact only.kept mounted.fsPrivate rfl
  clusterReadStream := mounted.clusterReadStream.of_onlyStreams only
  fatReadStream := mounted.fatReadStream.of_onlyStreams only
  fatReadNotNull := mounted.fatReadNotNull
  reservedSectors := mounted.reservedSectors
  sectorsPerCluster := mounted.sectorsPerCluster
  clusterNotEmpty := mounted.clusterNotEmpty
  dataAfterRoot := mounted.dataAfterRoot

/-- Changing an object that is neither the private structure nor a stream. -/
theorem Mounted.setObj (mounted : Mounted volume kernel) {ptr : Nat} {before : Obj}
    (present : kernel.objs ptr = some before) (notPrivate : before.fatPrivate? = none)
    (notStream : before.diskStream? = none) (after : Option Obj) :
    Mounted volume (kernel.setObj ptr after) := by
  have private' : ptr ≠ kernel.disk.fsPrivate := by
    apply Kernel.ne_of_objs present mounted.fsPrivate
    rintro rfl
    cases notPrivate
  have stream : ∀ stream, OnDisk kernel stream → OnDisk (kernel.setObj ptr after) stream := by
    rintro stream ⟨value, here, disk⟩
    have apart : ptr ≠ stream := by
      apply Kernel.ne_of_objs present here
      rintro rfl
      cases notStream
    exact ⟨value, (Kernel.setObj_objs_of_ne _ _ apart.symm).trans here, disk⟩
  exact {
    mounted with
    fsPrivate := (Kernel.setObj_objs_of_ne _ _ private'.symm).trans mounted.fsPrivate
    clusterReadStream := stream _ mounted.clusterReadStream
    fatReadStream := stream _ mounted.fatReadStream }

theorem loadPrivate_run (mounted : Mounted volume kernel) :
    loadPrivate.run kernel = .ok (volume, kernel) := by
  rw [loadPrivate, Exec.bind_of_ok (Exec.run_read _ _)]
  exact load_of_obj mounted.fsPrivate rfl

theorem diskstreamerSeek_at {stream : Nat} (on : OnDisk kernel stream) (pos : Int) :
    ∃ next, (diskstreamerSeek stream pos).run kernel = .ok (0, next) ∧
      OnlyStreams kernel next ∧
      next.objs stream = some (.diskStream { pos := pos, disk := .disk }) := by
  obtain ⟨value, present, disk⟩ := on
  have loaded : (load Obj.diskStream? stream).run kernel = .ok (value, kernel) :=
    load_of_obj present rfl
  refine ⟨_, ?_, @OnlyStreams.setObj kernel stream value ⟨pos, .disk⟩ present disk.symm,
    Kernel.setObj_objs_self ..⟩
  rw [diskstreamerSeek, Exec.bind_of_ok loaded,
    Exec.bind_of_ok (store_of_live (by rw [present]; rfl)), Exec.run_pure, disk]

theorem diskstreamerSeek_run {stream : Nat} (on : OnDisk kernel stream) (pos : Nat) :
    ∃ next, (diskstreamerSeek stream pos).run kernel = .ok (0, next) ∧
      OnlyStreams kernel next ∧ next.objs stream = some (streamAt pos) :=
  diskstreamerSeek_at on pos

theorem Delivers.run (delivers : Delivers read request) {stream pos total : Nat}
    (present : kernel.objs stream = some (streamAt pos)) (requested : request pos total) :
    ∃ next, (read stream total).run kernel = .ok ((0, window kernel.drive pos total), next) ∧
      OnlyStreams kernel next :=
  ⟨_, delivers kernel stream pos total requested present, .setObj present rfl⟩

/-- The code computes the position of an entry without overflow. -/
theorem fatEntryPos_eq (mounted : Mounted volume kernel) {cluster : Nat}
    (small : cluster < 65536) :
    i32 (u32 ((u32 (fat16GetFirstFatSector volume * kernel.disk.sectorSize) : Nat) +
      i32 ((cluster : Int) * 2))) = (fatEntryPos volume cluster : Nat) := by
  have reserved := mounted.reservedSectors
  unfold fatEntryPos fat16GetFirstFatSector
  rw [mounted.sectorSize]
  unfold peachosSectorSize i32 u32
  omega

theorem fatEntryPos_lt (mounted : Mounted volume kernel) {cluster : Nat}
    (small : cluster < 65536) : fatEntryPos volume cluster < 67108864 := by
  have reserved := mounted.reservedSectors
  unfold fatEntryPos
  omega

/-- The requests that the walk makes: two bytes at an even position. -/
def EntryRequests (request : Nat → Nat → Prop) : Prop :=
  ∀ pos, pos % 2 = 0 → pos < 67108864 → request pos 2

/-- **One entry.** The code reads `FAT[cluster]`. -/
theorem fat16GetFatEntry_run (delivers : Delivers read request) (entries : EntryRequests request)
    (mounted : Mounted volume kernel) {cluster : Nat} (small : cluster < 65536) :
    ∃ next, (fat16GetFatEntry read cluster).run kernel =
        .ok ((fatEntry volume kernel.drive cluster : Int), next) ∧ OnlyStreams kernel next := by
  obtain ⟨sought, seek, only, present⟩ :=
    diskstreamerSeek_run mounted.fatReadStream (fatEntryPos volume cluster)
  obtain ⟨next, done, only'⟩ := delivers.run present
    (entries _ (by unfold fatEntryPos; omega) (fatEntryPos_lt mounted small))
  refine ⟨next, ?_, only.trans only'⟩
  rw [fat16GetFatEntry, Exec.bind_of_ok (loadPrivate_run mounted),
    Exec.bind_of_ok (Exec.run_read _ _)]
  simp only [mounted.fatReadNotNull, if_false]
  rw [fatEntryPos_eq mounted small, Exec.bind_of_ok seek, if_neg (by decide)]
  refine (Exec.bind_of_ok done).trans ?_
  rw [only.drive]
  rfl

/-- No link among the first `steps` ones is rejected. -/
def Accepted (volume : FatPrivate) (drive : Nat → UInt8) (first steps : Nat) : Prop :=
  ∀ link < steps, fat16EntryRejected (fatChain volume drive first (link + 1)) = false

instance (volume : FatPrivate) (drive : Nat → UInt8) (first steps : Nat) :
    Decidable (Accepted volume drive first steps) :=
  inferInstanceAs (Decidable (∀ link < steps, _ = _))

/-- The acceptance of a chain is that of its second cluster and of the chain from there. -/
theorem accepted_succ (volume : FatPrivate) (drive : Nat → UInt8) (first steps : Nat) :
    Accepted volume drive first (steps + 1) ↔
      fat16EntryRejected (fatEntry volume drive first) = false ∧
        Accepted volume drive (fatEntry volume drive first) steps := by
  unfold Accepted
  constructor
  · intro accepted
    refine ⟨accepted 0 (by omega), fun link before => ?_⟩
    rw [← fatChain_succ]
    exact accepted (link + 1) (by omega)
  · rintro ⟨head, tail⟩ link before
    cases link with
    | zero => exact head
    | succ link =>
        rw [fatChain_succ]
        exact tail link (by omega)

/-- **The walk.** It arrives at the cluster that many links ahead, unless it meets an entry
that it rejects. -/
theorem fat16GetClusterLoop_run (delivers : Delivers read request)
    (entries : EntryRequests request) :
    ∀ (steps first : Nat) (kernel : Kernel), Mounted volume kernel → first < 65536 →
      ∃ next, (fat16GetClusterLoop read steps first).run kernel =
          .ok ((if Accepted volume kernel.drive first steps
            then (fatChain volume kernel.drive first steps : Int) else -eio), next) ∧
        OnlyStreams kernel next := by
  intro steps
  induction steps with
  | zero =>
      intro first kernel _ _
      have accepted : Accepted volume kernel.drive first 0 := fun link before => by omega
      exact ⟨kernel, by rw [if_pos accepted]; rfl, .refl kernel⟩
  | succ steps ih =>
      intro first kernel mounted small
      obtain ⟨middle, entry, only⟩ := fat16GetFatEntry_run delivers entries mounted small
      rw [fat16GetClusterLoop, Exec.bind_of_ok entry]
      by_cases rejected : fat16EntryRejected (fatEntry volume kernel.drive first)
      · rw [if_pos rejected]
        have stopped : ¬ Accepted volume kernel.drive first (steps + 1) := by
          rw [accepted_succ]
          rintro ⟨head, _⟩
          rw [rejected] at head
          cases head
        exact ⟨middle, by rw [if_neg stopped]; rfl, only⟩
      · rw [if_neg rejected]
        obtain ⟨next, walked, only'⟩ := ih _ middle (mounted.of_onlyStreams only)
          (fatEntry_lt volume kernel.drive first)
        refine ⟨next, ?_, only.trans only'⟩
        rw [walked, only.drive, ← fatChain_succ]
        have same := accepted_succ volume kernel.drive first steps
        simp only [Bool.not_eq_true] at rejected
        simp only [rejected, true_and] at same
        simp only [same]

/-- The size of a cluster in bytes. -/
def clusterBytes (volume : FatPrivate) : Nat := volume.header.sectorsPerCluster * 512

theorem clusterBytes_positive (mounted : Mounted volume kernel) : 0 < clusterBytes volume := by
  have notEmpty := mounted.clusterNotEmpty
  unfold clusterBytes
  omega

theorem sizeOfClusterBytes_eq (mounted : Mounted volume kernel) :
    sizeOfClusterBytes volume kernel.disk = clusterBytes volume := by
  have small := mounted.sectorsPerCluster
  unfold sizeOfClusterBytes clusterBytes
  rw [mounted.sectorSize]
  unfold peachosSectorSize i32
  omega

theorem divide_run {dividend divisor : Nat} (positive : 0 < divisor) :
    (divide dividend divisor).run kernel = .ok (((dividend / divisor : Nat) : Int), kernel) := by
  rw [divide, if_neg (by omega)]
  rfl

theorem remainder_run {dividend divisor : Nat} (positive : 0 < divisor) :
    (remainder dividend divisor).run kernel =
      .ok (((dividend % divisor : Nat) : Int), kernel) := by
  rw [remainder, if_neg (by omega)]
  rfl

/-- **The cluster of an offset.** -/
theorem fat16GetClusterForOffset_run (delivers : Delivers read request)
    (entries : EntryRequests request) (mounted : Mounted volume kernel) {first : Nat}
    (small : first < 65536) (offset : Nat) :
    ∃ next, (fat16GetClusterForOffset read first offset).run kernel =
        .ok ((if Accepted volume kernel.drive first (offset / clusterBytes volume)
          then (fatChain volume kernel.drive first (offset / clusterBytes volume) : Int)
          else -eio), next) ∧ OnlyStreams kernel next := by
  obtain ⟨next, walked, only⟩ := fat16GetClusterLoop_run delivers entries
    (offset / clusterBytes volume) first kernel mounted small
  refine ⟨next, ?_, only⟩
  rw [fat16GetClusterForOffset, Exec.bind_of_ok (loadPrivate_run mounted),
    Exec.bind_of_ok (Exec.run_read _ _), sizeOfClusterBytes_eq mounted,
    Exec.bind_of_ok (divide_run (clusterBytes_positive mounted)), Int.toNat_natCast, walked]

end Walk

/-- A FAT16 data cluster number. -/
def DataCluster (cluster : Nat) : Prop := 2 ≤ cluster ∧ cluster ≤ 0xFFEF

instance (cluster : Nat) : Decidable (DataCluster cluster) :=
  inferInstanceAs (Decidable (_ ∧ _))

/-- The clusters `c(0)` to `c(steps)` are data clusters. -/
def DataChain (volume : FatPrivate) (drive : Nat → UInt8) (first steps : Nat) : Prop :=
  ∀ link ≤ steps, DataCluster (fatChain volume drive first link)

/-- The result for an offset is the cluster that holds it, and an error when the chain up to
there has a cluster that holds no data. -/
def ClusterForOffsetCorrect (volume : FatPrivate) (kernel : Kernel) (first offset : Nat) :
    Prop :=
  ∃ res next, (fat16GetClusterForOffset diskstreamerRead first offset).run kernel =
      .ok (res, next) ∧
    (DataChain volume kernel.drive first (offset / clusterBytes volume) →
      res = fatChain volume kernel.drive first (offset / clusterBytes volume)) ∧
    (¬ DataChain volume kernel.drive first (offset / clusterBytes volume) → res < 0)

/-- The entries that the constants of the code single out: of these only `0`, `0xFFF8` and
`0xFFFF` are not data clusters. -/
def SingledOut (entry : Nat) : Prop :=
  entry = 0 ∨ entry = 0xFF0 ∨ entry = 0xFF6 ∨ entry = 0xFF7 ∨ entry = 0xFFF8 ∨ entry = 0xFFFF

instance (entry : Nat) : Decidable (SingledOut entry) :=
  inferInstanceAs (Decidable (_ ∨ _))

/-- The links up to `steps` are data clusters that the code does not single out, or one of
them is no data cluster and one of them is singled out. -/
def WalkAgrees (volume : FatPrivate) (drive : Nat → UInt8) (first steps : Nat) : Prop :=
  (∀ link < steps, DataCluster (fatChain volume drive first (link + 1)) ∧
      ¬ SingledOut (fatChain volume drive first (link + 1))) ∨
    (∃ link < steps, ¬ DataCluster (fatChain volume drive first (link + 1))) ∧
      ∃ link < steps, SingledOut (fatChain volume drive first (link + 1))

theorem Accepted.mono {volume : FatPrivate} {drive : Nat → UInt8} {first steps fewer : Nat}
    (accepted : Accepted volume drive first steps) (within : fewer ≤ steps) :
    Accepted volume drive first fewer :=
  fun link before => accepted link (by omega)

theorem fat16EntryRejected_iff (entry : Nat) :
    fat16EntryRejected entry = true ↔ SingledOut entry := by
  unfold fat16EntryRejected SingledOut peachosFat16BadSector
  rw [decide_eq_true_iff]
  omega

theorem accepted_iff {volume : FatPrivate} {drive : Nat → UInt8} {first steps : Nat} :
    Accepted volume drive first steps ↔
      ∀ link < steps, ¬ SingledOut (fatChain volume drive first (link + 1)) := by
  unfold Accepted
  refine forall₂_congr fun link _ => ?_
  rw [← fat16EntryRejected_iff, Bool.not_eq_true]

theorem dataChain_iff {volume : FatPrivate} {drive : Nat → UInt8} {first steps : Nat}
    (data : DataCluster first) :
    DataChain volume drive first steps ↔
      ∀ link < steps, DataCluster (fatChain volume drive first (link + 1)) := by
  constructor
  · intro chain link before
    exact chain (link + 1) before
  · intro links link within
    cases link with
    | zero => exact data
    | succ link => exact links link within

theorem entryRequests_sectorRequest : EntryRequests SectorRequest := by
  intro pos even small
  unfold SectorRequest
  omega

/-- **When the walk is right.** For every table, first data cluster and offset, the code
returns the cluster of the offset, or an error where there is none, if and only if its
constants agree with the FAT16 cluster numbers on the links up to there. -/
theorem clusterForOffset_correct_iff {volume : FatPrivate} {kernel : Kernel}
    (mounted : Mounted volume kernel) {first : Nat} (data : DataCluster first) (offset : Nat) :
    ClusterForOffsetCorrect volume kernel first offset ↔
      WalkAgrees volume kernel.drive first (offset / clusterBytes volume) := by
  have small : first < 65536 := by
    unfold DataCluster at data
    omega
  obtain ⟨next, run, _⟩ := fat16GetClusterForOffset_run diskstreamerRead_delivers
    entryRequests_sectorRequest mounted small offset
  unfold ClusterForOffsetCorrect WalkAgrees
  generalize offset / clusterBytes volume = steps at run ⊢
  rw [dataChain_iff data]
  constructor
  · rintro ⟨res, final, done, right, wrong⟩
    rw [run] at done
    cases done
    by_cases chain : ∀ link < steps, DataCluster (fatChain volume kernel.drive first (link + 1))
    · left
      have arrived := right chain
      have accepted : Accepted volume kernel.drive first steps := by
        by_contra rejected
        rw [if_neg rejected] at arrived
        unfold eio at arrived
        omega
      exact fun link before => ⟨chain link before, accepted_iff.mp accepted link before⟩
    · right
      have failed := wrong chain
      have rejected : ¬ Accepted volume kernel.drive first steps := by
        intro accepted
        rw [if_pos accepted] at failed
        omega
      rw [accepted_iff] at rejected
      push Not at chain rejected
      exact ⟨chain, rejected⟩
  · rintro (agrees | ⟨⟨link, before, notData⟩, ⟨other, earlier, rejected⟩⟩)
    · refine ⟨_, next, run, fun _ => ?_, fun broken => ?_⟩
      · rw [if_pos (accepted_iff.mpr fun link before => (agrees link before).2)]
      · exact absurd (fun link before => (agrees link before).1) broken
    · refine ⟨_, next, run, fun chain => absurd (chain link before) notData, fun _ => ?_⟩
      rw [if_neg fun accepted => accepted_iff.mp accepted other earlier rejected]
      decide

/-- A volume with one sector a cluster, whose table starts at byte 512 and whose clusters
start at byte 2048. -/
def smallVolume : FatPrivate where
  header := { sectorsPerCluster := 1, reservedSectors := 1 }
  rootDirectory := { endingSectorPos := 4 }
  clusterReadStream := 8192
  fatReadStream := 12288

/-- The volume mounted on a drive. -/
def smallVolumeKernel (drive : Nat → UInt8) : Kernel where
  heap := { table := { entries := [] }, saddr := 0 }
  disk := { fsPrivate := 4096, filesystem := some .fat16 }
  drive := drive
  objs ptr :=
    if ptr = 4096 then some (.fatPrivate smallVolume)
    else if ptr = 8192 ∨ ptr = 12288 then some (streamAt 0)
    else none

theorem smallVolume_mounted (drive : Nat → UInt8) :
    Mounted smallVolume (smallVolumeKernel drive) where
  sectorSize := rfl
  fsPrivate := rfl
  clusterReadStream := ⟨_, rfl, rfl⟩
  fatReadStream := ⟨_, rfl, rfl⟩
  fatReadNotNull := by decide
  reservedSectors := by decide
  sectorsPerCluster := by decide
  clusterNotEmpty := by decide
  dataAfterRoot := by decide

/-- `FAT[2] = 3`: the second sector of the file that starts at cluster 2 is cluster 3. -/
theorem clusterForOffset_correct_linked :
    ClusterForOffsetCorrect smallVolume
      (smallVolumeKernel fun pos => if pos = 516 then 3 else 0) 2 512 :=
  (clusterForOffset_correct_iff (smallVolume_mounted _) (by decide) 512).mpr
    (.inl (by decide))

/-- A drive on which `FAT[2]` is `0xFFF7`, the marker of a bad cluster. -/
def badClusterDrive (pos : Nat) : UInt8 :=
  if pos = 516 then 0xF7 else if pos = 517 then 0xFF else 0

/-- The marker of a bad cluster is returned as a cluster. -/
theorem clusterForOffset_badCluster :
    DataCluster 2 ∧
      ¬ ClusterForOffsetCorrect smallVolume (smallVolumeKernel badClusterDrive) 2 512 := by
  refine ⟨by decide, ?_⟩
  rintro ⟨res, next, run, _, wrong⟩
  have failed := wrong (fun chain => absurd (chain 1 (by decide)) (by decide))
  obtain ⟨after, arrived, _⟩ := fat16GetClusterForOffset_run diskstreamerRead_delivers
    entryRequests_sectorRequest (smallVolume_mounted badClusterDrive) (by decide : 2 < 65536) 512
  rw [if_pos (by decide)] at arrived
  have same := arrived.symm.trans run
  cases same
  omega

end Peachos
