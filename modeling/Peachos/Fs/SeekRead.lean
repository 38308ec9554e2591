import Peachos.Fs.OpenFile

/-! # Random access to a file

`fseek` to a position and `fread` from there, against the bytes of the file: the
concatenation of the clusters of its chain.
-/

namespace Peachos

open CInt Window

/-- The number of clusters that hold the file. -/
def fileClusters (volume : FatPrivate) (raw : List UInt8) : Nat :=
  (fileSize raw + clusterBytes volume - 1) / clusterBytes volume

/-- The bytes of a cluster of the chain. -/
def clusterBytesAt (volume : FatPrivate) (drive : Nat → UInt8) (first link position : Nat) :
    UInt8 :=
  drive ((clusterPos volume (fatChain volume drive first link)).toNat + position)

/-- The concatenation of the first `count` clusters of a chain. -/
def chainContents (volume : FatPrivate) (drive : Nat → UInt8) (first count : Nat) :
    List UInt8 :=
  (List.range count).flatMap fun link =>
    window drive (clusterPos volume (fatChain volume drive first link)).toNat
      (clusterBytes volume)

/-- The chain of the file has a data cluster for all its bytes, at positions that an `int`
can hold. -/
structure FileChain (volume : FatPrivate) (drive : Nat → UInt8) (raw : List UInt8) : Prop where
  data : ∀ link < fileClusters volume raw,
    DataCluster (fatChain volume drive (firstCluster raw) link)
  placed : ∀ link < fileClusters volume raw,
    clusterPos volume (fatChain volume drive (firstCluster raw) link) + clusterBytes volume ≤
      2147483648

theorem chainContents_eq {volume : FatPrivate} (drive : Nat → UInt8) (first count : Nat)
    (positive : 0 < clusterBytes volume) :
    chainContents volume drive first count =
      window (assembled (clusterBytesAt volume drive first) (clusterBytes volume)) 0
        (count * clusterBytes volume) := by
  rw [← flatMap_window _ positive]
  unfold chainContents
  congr 1
  funext link
  apply window_congr
  intro index _
  rw [Nat.zero_add]
  rfl

section Chain

variable {volume : FatPrivate} {kernel : Kernel} {drive : Nat → UInt8} {raw : List UInt8}

/-- The clusters of the file hold all its bytes. -/
theorem fileClusters_holds (positive : 0 < clusterBytes volume) {position : Nat}
    (inside : position < fileSize raw) :
    position / clusterBytes volume < fileClusters volume raw := by
  unfold fileClusters
  rw [Nat.div_lt_iff_lt_mul positive]
  have whole := Nat.div_add_mod (fileSize raw + clusterBytes volume - 1) (clusterBytes volume)
  have rest := Nat.mod_lt (fileSize raw + clusterBytes volume - 1) positive
  rw [Nat.mul_comm]
  omega

theorem FileChain.first (chain : FileChain volume drive raw) (positive : 0 < clusterBytes volume)
    (nonempty : 0 < fileSize raw) : firstCluster raw < 65536 := by
  have holds := fileClusters_holds positive nonempty
  rw [Nat.zero_div] at holds
  have start := chain.data 0 holds
  unfold DataCluster fatChain at start
  omega

/-- A data cluster lies behind the root directory. -/
theorem clusterPos_nonneg (mounted : Mounted volume kernel) {cluster : Nat}
    (data : DataCluster cluster) : 0 ≤ clusterPos volume cluster := by
  have ahead := mounted.dataAfterRoot
  unfold DataCluster at data
  unfold clusterPos
  have product : 0 ≤ ((cluster : Int) - 2) * volume.header.sectorsPerCluster :=
    Int.mul_nonneg (by omega) (by omega)
  omega

/-- The pieces of a request inside the file start on the disk. -/
theorem FileChain.pieceReadable (mounted : Mounted volume kernel)
    (chain : FileChain volume drive raw) {request : Nat → Nat → Prop} {position total : Nat}
    (inside : position < fileSize raw)
    (requested : ∀ cluster, DataCluster cluster →
      clusterPos volume cluster + clusterBytes volume ≤ 2147483648 →
      request (clusterPos volume cluster + (position % clusterBytes volume : Nat)).toNat
        (min total (clusterBytes volume))) :
    PieceReadable request volume drive (firstCluster raw) position total := by
  have positive := clusterBytes_positive mounted
  have link := fileClusters_holds positive inside
  have data := chain.data _ link
  have placed := chain.placed _ link
  have rest := Nat.mod_lt position positive
  refine ⟨clusterPos_nonneg mounted data, ?_, requested _ data placed⟩
  unfold piecePos
  omega

/-- The bytes of a part of the file. -/
theorem chainContents_part (positive : 0 < clusterBytes volume) (first : Nat) {a b : Nat}
    (order : a ≤ b) (inside : b ≤ fileSize raw) :
    ((chainContents volume drive first (fileClusters volume raw)).drop a).take (b - a) =
      window (assembled (clusterBytesAt volume drive first) (clusterBytes volume)) a (b - a) := by
  have holds : fileSize raw ≤ fileClusters volume raw * clusterBytes volume := by
    by_contra beyond
    have link := @fileClusters_holds volume raw positive _ (not_le.mp beyond)
    rw [Nat.mul_div_cancel _ positive] at link
    omega
  rw [chainContents_eq drive first _ positive, drop_window _ _ (by omega), Nat.zero_add,
    take_window _ _ (by omega)]

/-- The clusters of a request inside the file are accepted when those of the file are. -/
theorem acceptedUpTo_of_file (positive : 0 < clusterBytes volume)
    (accepted : Accepted volume drive (firstCluster raw) (fileClusters volume raw - 1))
    {pos size : Nat} (nonempty : 1 ≤ size) (inside : pos + size ≤ fileSize raw) :
    AcceptedUpTo volume drive (firstCluster raw) pos size := by
  intro piece within
  apply accepted.mono
  have link := @fileClusters_holds volume raw positive (pos + piece * clusterBytes volume) (by
    rcases within with rfl | within <;> omega)
  rw [Nat.add_mul_div_right _ _ positive] at link
  omega

end Chain

/-- The requests of an exact reader: every position and length that an `int` can hold. -/
def ExactRequest (pos total : Nat) : Prop := pos < 2147483648 ∧ total < 2147483648

/-- `fseek(fd, a, SEEK_SET)` followed by `fread(buf, b - a, 1, fd)`. -/
def seekRead (read : StreamRead) (fd a b buf : Nat) : K Int := do
  let _ ← fseek fd a seekSet
  fread read buf (b - a) 1 fd

/-- The read returns 1 and the buffer holds the bytes `a` to `b - 1` of the file. -/
def SeekReadCorrect (read : StreamRead) (volume : FatPrivate) (kernel : Kernel) (fd : Nat)
    (raw : List UInt8) (a b buf : Nat) : Prop :=
  ∃ final contents, (seekRead read fd a b buf).run kernel = .ok (1, final) ∧
    final.objs buf = some (.bytes contents) ∧
    contents.take (b - a) = ((chainContents volume kernel.drive (firstCluster raw)
      (fileClusters volume raw)).drop a).take (b - a)

/-- Every requested byte whose offset in its cluster is smaller than the offset of `a` in
its cluster is also found behind the previous cluster of the chain on the disk. -/
def FollowsOnDisk (volume : FatPrivate) (drive : Nat → UInt8) (first a b : Nat) : Prop :=
  ∀ position, a ≤ position → position < b →
    position % clusterBytes volume < a % clusterBytes volume →
    clusterBytesAt volume drive first (position / clusterBytes volume - 1)
        (clusterBytes volume + position % clusterBytes volume) =
      clusterBytesAt volume drive first (position / clusterBytes volume)
        (position % clusterBytes volume)

/-- A delivered byte, by the cluster of its piece. -/
theorem requestPieces_eq {volume : FatPrivate} {drive : Nat → UInt8} {first a piece position : Nat}
    (positive : 0 < clusterBytes volume)
    (lower : 0 ≤ clusterPos volume (fatChain volume drive first (a / clusterBytes volume + piece))) :
    requestPieces volume drive first a piece position =
      clusterBytesAt volume drive first (a / clusterBytes volume + piece)
        (a % clusterBytes volume + position) := by
  unfold requestPieces clusterBytesAt piecePos
  rw [Nat.add_mul_div_right _ _ positive, Nat.add_mul_mod_self_right,
    Int.toNat_add lower (Int.natCast_nonneg _), Int.toNat_natCast, Nat.add_assoc]

/-- Where a position after `a` lies, when no cluster ends between the offsets. -/
theorem position_within {a index size : Nat} (positive : 0 < size)
    (within : a % size + index % size < size) :
    (a + index) / size = a / size + index / size ∧
      (a + index) % size = a % size + index % size := by
  have sum : a + index = a % size + index % size + size * (a / size + index / size) := by
    have wholeA := Nat.div_add_mod a size
    have wholeIndex := Nat.div_add_mod index size
    rw [Nat.mul_add]
    omega
  rw [sum, Nat.add_mul_div_left _ _ positive, Nat.add_mul_mod_self_left, Nat.div_eq_of_lt within,
    Nat.mod_eq_of_lt within, Nat.zero_add]
  exact ⟨rfl, rfl⟩

/-- Where a position after `a` lies, when a cluster ends between the offsets. -/
theorem position_beyond {a index size : Nat} (positive : 0 < size)
    (beyond : size ≤ a % size + index % size) :
    (a + index) / size = a / size + index / size + 1 ∧
      size + (a + index) % size = a % size + index % size := by
  have restA := Nat.mod_lt a positive
  have restIndex := Nat.mod_lt index positive
  have less : a % size + index % size - size < size := by omega
  have sum : a + index =
      (a % size + index % size - size) + size * (a / size + index / size + 1) := by
    have wholeA := Nat.div_add_mod a size
    have wholeIndex := Nat.div_add_mod index size
    rw [Nat.mul_add, Nat.mul_add, Nat.mul_one]
    omega
  rw [sum, Nat.add_mul_div_left _ _ positive, Nat.add_mul_mod_self_left, Nat.div_eq_of_lt less,
    Nat.mod_eq_of_lt less]
  omega

/-- What is delivered is the file exactly when the bytes after each cluster's end that a
piece runs on to are those of the chain. -/
theorem delivered_eq_iff {volume : FatPrivate} {drive : Nat → UInt8} {first a b : Nat}
    (positive : 0 < clusterBytes volume)
    (lower : ∀ position, a ≤ position → position < b →
      0 ≤ clusterPos volume (fatChain volume drive first (position / clusterBytes volume))) :
    delivered volume drive first a (b - a) =
        window (assembled (clusterBytesAt volume drive first) (clusterBytes volume)) a (b - a) ↔
      FollowsOnDisk volume drive first a b := by
  have wholeA := Nat.div_add_mod a (clusterBytes volume)
  have byte : ∀ index < b - a,
      assembled (requestPieces volume drive first a) (clusterBytes volume) (0 + index) =
        clusterBytesAt volume drive first
          (a / clusterBytes volume + index / clusterBytes volume)
          (a % clusterBytes volume + index % clusterBytes volume) := by
    intro index inside
    have whole := Nat.div_add_mod index (clusterBytes volume)
    rw [Nat.zero_add]
    apply requestPieces_eq positive
    have start := lower (a + index / clusterBytes volume * clusterBytes volume) (by omega) (by
      rw [Nat.mul_comm]
      omega)
    rw [Nat.add_mul_div_right _ _ positive] at start
    exact start
  constructor
  · intro same position after before smaller
    have here := window_injective same (position - a) (by omega)
    rw [byte _ (by omega)] at here
    have beyond : clusterBytes volume ≤
        a % clusterBytes volume + (position - a) % clusterBytes volume := by
      by_contra within
      have place := position_within positive (not_le.mp within)
      rw [show a + (position - a) = position by omega] at place
      omega
    have place := position_beyond positive beyond
    rw [show a + (position - a) = position by omega] at place here
    rw [place.1, place.2, Nat.add_sub_cancel, here, ← place.1]
    rfl
  · intro follows
    apply window_congr
    intro index inside
    rw [byte _ inside]
    unfold assembled
    by_cases within :
        a % clusterBytes volume + index % clusterBytes volume < clusterBytes volume
    · have place := position_within positive within
      rw [place.1, place.2]
    · have place := position_beyond positive (not_lt.mp within)
      have rest := Nat.mod_lt index positive
      have continued := follows (a + index) (by omega) (by omega) (by omega)
      rw [place.1, Nat.add_sub_cancel, place.2, ← place.1] at continued
      exact continued

section Access

variable {read : StreamRead} {volume : FatPrivate} {kernel : Kernel} {fd : Nat}
  {ptrs : FilePointers} {raw : List UInt8} {pos a b buf : Nat} {contents : List UInt8}

/-- The read returns 1 and the buffer starts with what the recursion delivers. -/
theorem seekRead_run (delivers : Delivers read ExactRequest)
    (mounted : Mounted volume kernel) (file : OpenFile kernel fd ptrs raw pos)
    (chain : FileChain volume kernel.drive raw)
    (accepted : Accepted volume kernel.drive (firstCluster raw) (fileClusters volume raw - 1))
    (sizeInt : fileSize raw < 2147483648) (order : a < b) (inside : b ≤ fileSize raw)
    (buffer : kernel.objs buf = some (.bytes contents)) (fits : b - a ≤ contents.length) :
    ∃ final, (seekRead read fd a b buf).run kernel = .ok (1, final) ∧
      final.objs buf = some (.bytes (delivered volume kernel.drive (firstCluster raw) a (b - a) ++
        contents.drop (b - a))) := by
  have positive := clusterBytes_positive mounted
  have first := chain.first positive (by omega)
  have sought := fseek_run file (show a < fileSize raw by omega) (by omega)
  have apart : buf ≠ ptrs.descriptor := Kernel.ne_of_objs buffer file.descriptor nofun
  have buffer' := (Kernel.setObj_objs_of_ne kernel (some (.fatFileDescriptor
    { item := ptrs.item, pos := a })) apart).trans buffer
  have onDisk : ReadOnDisk ExactRequest volume kernel.drive (firstCluster raw) a (b - a) := by
    intro piece within
    apply chain.pieceReadable mounted
    · rcases within with rfl | within <;> omega
    · intro cluster data placed
      have rest := Nat.mod_lt (a + piece * clusterBytes volume) positive
      unfold ExactRequest
      omega
  obtain ⟨streamed, only, outcome⟩ := fread_run (file.sought a)
    (mounted.setObj file.descriptor rfl rfl _) delivers (fun _ _ small => ⟨by omega, by omega⟩)
    first (show 1 ≤ b - a by omega) (by omega) (by omega) (by omega) onDisk buffer' fits
  have run := outcome.resolve_right (by
    rintro ⟨_, _, rejected, _⟩
    exact rejected (acceptedUpTo_of_file positive accepted (by omega) (by omega)))
  have length : (delivered volume kernel.drive (firstCluster raw) a (b - a)).length = b - a :=
    length_window ..
  refine ⟨_, (Exec.bind_of_ok sought).trans run, ?_⟩
  rw [afterRead, Kernel.setObj_objs_of_ne _ _ apart, Kernel.setObj_objs_self]
  change some (Obj.bytes (delivered volume kernel.drive _ a (b - a) ++
    contents.drop (delivered volume kernel.drive _ a (b - a)).length)) = _
  rw [length]

/-- The read is right exactly when what it delivers is that part of the file. -/
theorem seekRead_correct_iff_delivered (delivers : Delivers read ExactRequest)
    (mounted : Mounted volume kernel) (file : OpenFile kernel fd ptrs raw pos)
    (chain : FileChain volume kernel.drive raw)
    (accepted : Accepted volume kernel.drive (firstCluster raw) (fileClusters volume raw - 1))
    (sizeInt : fileSize raw < 2147483648) (order : a < b) (inside : b ≤ fileSize raw)
    (buffer : kernel.objs buf = some (.bytes contents)) (fits : b - a ≤ contents.length) :
    SeekReadCorrect read volume kernel fd raw a b buf ↔
      delivered volume kernel.drive (firstCluster raw) a (b - a) =
        window (assembled (clusterBytesAt volume kernel.drive (firstCluster raw))
          (clusterBytes volume)) a (b - a) := by
  have positive := clusterBytes_positive mounted
  have length : (delivered volume kernel.drive (firstCluster raw) a (b - a)).length = b - a :=
    length_window ..
  obtain ⟨final, run, filled⟩ := seekRead_run delivers mounted file chain accepted sizeInt order
    inside buffer fits
  unfold SeekReadCorrect
  rw [run, chainContents_part positive _ order.le inside]
  constructor
  · rintro ⟨final, found, done, present, same⟩
    cases done
    rw [filled] at present
    cases present
    rw [List.take_left' length] at same
    exact same
  · intro same
    exact ⟨_, _, rfl, filled, by rw [List.take_left' length, same]⟩

/-- **Random access.** With a reader that delivers every request exactly and a chain whose
clusters the walk accepts, the bytes `a` to `b - 1` of the file arrive in the buffer if and
only if what follows on the disk, where the request runs on over the end of a cluster, is
what follows in the chain. -/
theorem seekRead_correct_iff (delivers : Delivers read ExactRequest)
    (mounted : Mounted volume kernel) (file : OpenFile kernel fd ptrs raw pos)
    (chain : FileChain volume kernel.drive raw)
    (accepted : Accepted volume kernel.drive (firstCluster raw) (fileClusters volume raw - 1))
    (sizeInt : fileSize raw < 2147483648) (order : a < b) (inside : b ≤ fileSize raw)
    (buffer : kernel.objs buf = some (.bytes contents)) (fits : b - a ≤ contents.length) :
    SeekReadCorrect read volume kernel fd raw a b buf ↔
      FollowsOnDisk volume kernel.drive (firstCluster raw) a b := by
  have positive := clusterBytes_positive mounted
  have lower : ∀ position, a ≤ position → position < b → 0 ≤ clusterPos volume
      (fatChain volume kernel.drive (firstCluster raw) (position / clusterBytes volume)) :=
    fun position _ before => clusterPos_nonneg mounted
      (chain.data _ (fileClusters_holds positive (by omega)))
  rw [seekRead_correct_iff_delivered delivers mounted file chain accepted sizeInt order inside
    buffer fits]
  exact delivered_eq_iff positive lower

end Access

/-- A reader that copies the requested bytes. -/
def exactRead : StreamRead := fun stream total => do
  let value ← load Obj.diskStream? stream
  let drive ← Exec.read Kernel.drive
  store stream (.diskStream { value with pos := i32 (value.pos + total) })
  pure (0, window drive value.pos.toNat total.toNat)

theorem exactRead_delivers : Delivers exactRead ExactRequest := by
  intro kernel stream pos total _ present
  have loaded : (load Obj.diskStream? stream).run kernel = .ok (_, kernel) :=
    load_of_obj present rfl
  rw [exactRead, Exec.bind_of_ok loaded, Exec.bind_of_ok (Exec.run_read _ _),
    Exec.bind_of_ok (store_of_live (by rw [present]; rfl)), Exec.run_pure]
  rfl

/-- The directory entry of a file of 1024 bytes that starts at cluster 2. -/
def twoClusterEntry : List UInt8 :=
  List.replicate 11 0x20 ++ List.replicate 15 0 ++ [2, 0, 0, 4, 0, 0]

/-- A drive on which the cluster after cluster 2 is cluster 4, and the cluster between them
has other bytes. -/
def fragmentedDrive (pos : Nat) : UInt8 :=
  if pos = 516 then 4 else if 2560 ≤ pos ∧ pos < 3072 then 88 else 65

/-- The small volume on that drive, with the file open as number 1 and a buffer at 32768. -/
def fragmentedKernel : Kernel where
  heap := { table := { entries := [] }, saddr := 0 }
  disk := { fsPrivate := 4096, filesystem := some .fat16 }
  drive := fragmentedDrive
  fileDescriptors := 16384 :: List.replicate 511 0
  objs ptr :=
    if ptr = 4096 then some (.fatPrivate smallVolume)
    else if ptr = 8192 ∨ ptr = 12288 then some (streamAt 0)
    else if ptr = 16384 then some (.fileDescriptor {
      index := 1
      filesystem := some .fat16
      privateData := 20480
      disk := .disk })
    else if ptr = 20480 then some (.fatFileDescriptor { item := 24576 })
    else if ptr = 24576 then some (.fatItem { pointer := 28672, type := fatItemTypeFile })
    else if ptr = 28672 then some (.bytes twoClusterEntry)
    else if ptr = 32768 then some (.bytes (List.replicate 1024 0))
    else none

theorem fragmentedKernel_mounted : Mounted smallVolume fragmentedKernel where
  sectorSize := rfl
  fsPrivate := rfl
  clusterReadStream := ⟨_, rfl, rfl⟩
  fatReadStream := ⟨_, rfl, rfl⟩
  fatReadNotNull := by decide
  reservedSectors := by decide
  sectorsPerCluster := by decide
  clusterNotEmpty := by decide
  dataAfterRoot := by decide

theorem fragmentedKernel_open :
    OpenFile fragmentedKernel 1 ⟨16384, 20480, 24576, 28672⟩ twoClusterEntry 0 where
  positive := by decide
  inTable := by decide
  slot := rfl
  descNotNull := by decide
  desc := rfl
  descriptor := rfl
  item := rfl
  entry := rfl

theorem fragmentedKernel_chain :
    FileChain smallVolume fragmentedKernel.drive twoClusterEntry where
  data := by decide
  placed := by decide

/-- The whole fragmented file is read from its start. -/
theorem seekRead_correct_whole :
    SeekReadCorrect exactRead smallVolume fragmentedKernel 1 twoClusterEntry 0 1024 32768 :=
  (seekRead_correct_iff exactRead_delivers fragmentedKernel_mounted fragmentedKernel_open
    fragmentedKernel_chain (by decide) (by decide) (by decide) (by decide) rfl
    (by rw [List.length_replicate])).mpr fun position _ _ smaller => by
      rw [Nat.zero_mod] at smaller
      omega

/-- The bytes 1 to 512 of the file are not: the last one is the first byte of cluster 3
instead of cluster 4. -/
theorem seekRead_fragmented :
    513 ≤ fileSize twoClusterEntry ∧
      ¬ SeekReadCorrect exactRead smallVolume fragmentedKernel 1 twoClusterEntry 1 513 32768 := by
  refine ⟨by decide, ?_⟩
  rw [seekRead_correct_iff_delivered exactRead_delivers fragmentedKernel_mounted
    fragmentedKernel_open fragmentedKernel_chain (by decide) (by decide) (by decide) (by decide)
    rfl (by rw [List.length_replicate]; decide)]
  intro same
  exact absurd (window_injective same 511 (by decide)) (by decide)

end Peachos
