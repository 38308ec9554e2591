import Peachos.Fs.BytePositions
import Peachos.Fs.Mount

/-! # The bounds of the root directory

The scan that counts the root directory stops at the first entry whose first byte is zero, wherever
that is. It stays in the region of the root directory exactly when one of the entries of the region
starts with a zero byte, at a position that an `int` can hold.
-/

namespace Peachos

open CInt Window Exec

section Sectors

theorem ataSector_eq (lba : Int) : (ataSector lba : Int) = lba % 268435456 := by
  have device : ((u32 lba / 16777216 % 256) ||| 0xE0) % 16 = u32 lba / 16777216 % 256 % 16 := by
    rw [show 16 = 2 ^ 4 by rfl, Nat.or_mod_two_pow]
    exact Nat.or_zero _
  have word : (u32 lba : Int) = lba % 4294967296 := by
    unfold u32
    omega
  unfold ataSector
  simp only [device]
  omega

/-- The sector of a position at the start of a sector: the ports have 28 bits of it. -/
theorem requestedSector_mul (sector : Int) :
    (requestedSector (sector * 512) : Int) = sector % 268435456 := by
  have whole : (sector * 512).tdiv peachosSectorSize = sector :=
    Int.mul_tdiv_cancel _ (by decide)
  unfold requestedSector
  rw [whole, ataSector_eq]
  unfold u32 i32
  omega

/-- Where the first byte is on the disk that a read at the stream position `pos` delivers. -/
def requestedByte (pos : Int) : Int := requestedSector pos * 512 + pos.tmod peachosSectorSize

theorem requestedByte_mul (sector : Int) :
    requestedByte (sector * 512) = sector % 268435456 * 512 := by
  unfold requestedByte
  rw [requestedSector_mul, show (sector * 512).tmod peachosSectorSize = 0 from
    Int.mul_tmod_left _ _, Int.add_zero]

theorem requestedByte_small {pos : Nat} (small : pos < 2147483648) : requestedByte pos = pos := by
  unfold requestedByte
  rw [requestedSector_eq small, tmod_sectorSize]
  omega

end Sectors

/-- A read of `total` bytes at the stream position `pos` stays in the root directory region. -/
def InRoot (volume : FatPrivate) (pos total : Int) : Prop :=
  (volume.rootSector * 512 : Nat) ≤ requestedByte pos ∧
    requestedByte pos + total ≤ (volume.rootSector * 512 + volume.rootSize : Nat)

instance (volume : FatPrivate) (pos total : Int) : Decidable (InRoot volume pos total) :=
  inferInstanceAs (Decidable (_ ∧ _))

/-- `diskstreamer_read` that stops at a read outside the root directory region. -/
def rootReader (volume : FatPrivate) : StreamRead := fun stream total => do
  let value ← load Obj.diskStream? stream
  if InRoot volume value.pos total then diskstreamerRead stream total
  else Exec.fault (.bufferIndex value.pos)

/-- The scan of the root directory reads no entry outside its region. -/
def ScanInside (volume : FatPrivate) (kernel : Kernel) : Prop :=
  (fat16GetTotalItemsForDirectory (rootReader volume) volume.rootSector).run kernel =
    (fat16GetTotalItemsForDirectory diskstreamerRead volume.rootSector).run kernel

/-- One of the entries of the region starts with a zero byte, at a position that an `int` can
hold. -/
def EndsInRegion (volume : FatPrivate) (drive : Nat → UInt8) : Prop :=
  ∃ i < volume.header.rootDirEntries,
    volume.rootSector * 512 + sizeofFatDirectoryItem * (i + 1) ≤ 2147483648 ∧
      drive (volume.rootSector * 512 + sizeofFatDirectoryItem * i) = 0

section Readers

variable {volume : FatPrivate} {kernel next : Kernel} {stream : Nat}

/-- What the first reader completes, the second does too. -/
def Refines (confined read : StreamRead) : Prop :=
  ∀ {stream : Nat} {total : Int} {kernel : Kernel} {result : (Int × List UInt8) × Kernel},
    (confined stream total).run kernel = .ok result → (read stream total).run kernel = .ok result

theorem rootReader_refines : Refines (rootReader volume) diskstreamerRead := by
  intro stream total kernel result run
  obtain ⟨contents, value, present, typed, run⟩ := load_bind_eq_ok.mp run
  by_cases inside : InRoot volume value.pos total
  · rwa [if_pos inside] at run
  · rw [if_neg inside, run_fault] at run
    cases run

theorem fat16GetTotalItemsLoop_refines {confined read : StreamRead} (refines : Refines confined read) :
    ∀ (fuel : Nat) (i : Int) (kernel : Kernel) {result : Int × Kernel},
      (fat16GetTotalItemsLoop confined stream fuel i).run kernel = .ok result →
      (fat16GetTotalItemsLoop read stream fuel i).run kernel = .ok result := by
  intro fuel
  induction fuel with
  | zero => exact fun _ _ _ run => run
  | succ fuel ih =>
      intro i kernel result run
      obtain ⟨⟨res, item⟩, middle, delivered, run⟩ := bind_eq_ok.mp run
      rw [fat16GetTotalItemsLoop]
      refine (bind_of_ok (refines delivered)).trans ?_
      dsimp only at run ⊢
      by_cases failed : res ≠ peachosAllOk
      · rwa [if_pos failed] at run ⊢
      rw [if_neg failed] at run ⊢
      by_cases ended : item.getD 0 0 = 0
      · rwa [if_pos ended] at run ⊢
      rw [if_neg ended] at run ⊢
      by_cases deleted : item.getD 0 0 = 0xE5
      · rw [if_pos deleted] at run ⊢
        exact ih _ _ run
      · rw [if_neg deleted] at run ⊢
        exact ih _ _ run

theorem fat16GetTotalItemsForDirectory_refines {confined read : StreamRead}
    (refines : Refines confined read) {sector : Nat} {result : Int × Kernel}
    (run : (fat16GetTotalItemsForDirectory confined sector).run kernel = .ok result) :
    (fat16GetTotalItemsForDirectory read sector).run kernel = .ok result := by
  obtain ⟨fatPrivate, middle, loaded, run⟩ := bind_eq_ok.mp run
  obtain ⟨disk, middle', viewed, run⟩ := bind_eq_ok.mp run
  obtain ⟨res, middle'', sought, run⟩ := bind_eq_ok.mp run
  rw [fat16GetTotalItemsForDirectory, bind_of_ok loaded, bind_of_ok viewed, bind_of_ok sought]
  by_cases failed : res ≠ peachosAllOk
  · rwa [if_pos failed] at run ⊢
  · rw [if_neg failed] at run ⊢
    exact fat16GetTotalItemsLoop_refines refines _ _ _ run

theorem rootReader_run {value : DiskStream} (present : kernel.objs stream = some (.diskStream value))
    (total : Int) : (rootReader volume stream total).run kernel =
      if InRoot volume value.pos total then (diskstreamerRead stream total).run kernel
      else .error (.bufferIndex value.pos) := by
  have loaded : (load Obj.diskStream? stream).run kernel = .ok (value, kernel) :=
    load_of_obj present rfl
  rw [rootReader, bind_of_ok loaded]
  split
  · rfl
  · rfl

/-- The requests for entries in the region. -/
def RootRequest (volume : FatPrivate) (pos total : Nat) : Prop :=
  SectorRequest pos total ∧ volume.rootSector * 512 ≤ pos ∧
    pos + total ≤ volume.rootSector * 512 + volume.rootSize

theorem rootReader_delivers : Delivers (rootReader volume) (RootRequest volume) := by
  rintro kernel stream pos total ⟨request, after, before⟩ present
  have small := request.2.1
  rw [rootReader_run present, if_pos]
  · exact diskstreamerRead_delivers kernel stream pos total request present
  · unfold InRoot
    rw [requestedByte_small small]
    omega

/-- A completed read of an entry is one in the region. -/
theorem rootReader_completed {pos : Nat} (present : kernel.objs stream = some (streamAt pos))
    (aligned : pos % sizeofFatDirectoryItem = 0)
    (bounded : pos + sizeofFatDirectoryItem ≤ 2147483648) {res : Int} {item : List UInt8}
    (run : (rootReader volume stream sizeofFatDirectoryItem).run kernel =
      .ok ((res, item), next)) :
    RootRequest volume pos sizeofFatDirectoryItem ∧ res = 0 ∧
      item = window kernel.drive pos sizeofFatDirectoryItem ∧
      next = kernel.setObj stream (some (streamPast pos sizeofFatDirectoryItem)) := by
  have small : pos < 2147483648 := by
    unfold sizeofFatDirectoryItem at bounded
    omega
  have request := itemRequests_sectorRequest pos aligned bounded
  rw [rootReader_run present] at run
  by_cases inside : InRoot volume pos sizeofFatDirectoryItem
  · rw [if_pos inside, diskstreamerRead_delivers kernel stream pos _ request present] at run
    cases run
    unfold InRoot at inside
    rw [requestedByte_small small] at inside
    exact ⟨⟨request, by omega, by omega⟩, rfl, rfl, rfl⟩
  · rw [if_neg inside] at run
    cases run

/-- Where the position has wrapped around, the read is not in the region. -/
theorem rootReader_wrapped (small : volume.rootSector < 16777216)
    (entries : volume.header.rootDirEntries < 65536) {pos : Int}
    (present : kernel.objs stream = some (.diskStream { pos := pos, disk := .disk }))
    {sector : Int} (whole : pos = sector * 512) (below : -4194304 ≤ sector)
    (elsewhere : sector < 0 ∨ sector < volume.rootSector) :
    (rootReader volume stream sizeofFatDirectoryItem).run kernel = .error (.bufferIndex pos) := by
  rw [rootReader_run present, if_neg]
  have size : volume.rootSize = sizeofFatDirectoryItem * volume.header.rootDirEntries := rfl
  unfold InRoot
  unfold sizeofFatDirectoryItem at *
  rw [whole, requestedByte_mul]
  omega

theorem getD_window {drive : Nat → UInt8} {pos length : Nat} (positive : 0 < length) :
    (window drive pos length).getD 0 0 = drive pos := by
  rw [List.getD_eq_getElem?_getD, getElem?_window positive, Option.getD_some, Nat.add_zero]

theorem fat16GetTotalItemsLoop_stopped {read : StreamRead} {reason : Fault}
    (stopped : (read stream sizeofFatDirectoryItem).run kernel = .error reason) {fuel : Nat}
    {i : Int} {result : Int × Kernel} :
    ¬ (fat16GetTotalItemsLoop read stream fuel i).run kernel = .ok result := by
  intro run
  cases fuel with
  | zero => cases run
  | succ fuel =>
      obtain ⟨_, _, delivered, _⟩ := bind_eq_ok.mp run
      rw [stopped] at delivered
      cases delivered

/-- **The region is left** by a scan that meets no zero byte in it: the scan of the confined reader
only completes at one. -/
theorem rootScan_ends (small : volume.rootSector < 16777216)
    (entries : volume.header.rootDirEntries < 65536) : ∀ (fuel pos : Nat) (i : Int)
    (kernel : Kernel) {result : Int × Kernel}, kernel.objs stream = some (streamAt pos) →
    pos % sizeofFatDirectoryItem = 0 → pos + sizeofFatDirectoryItem ≤ 2147483648 →
    (fat16GetTotalItemsLoop (rootReader volume) stream fuel i).run kernel = .ok result →
    ∃ last, RootRequest volume last sizeofFatDirectoryItem ∧ last % sizeofFatDirectoryItem = 0 ∧
      kernel.drive last = 0 := by
  intro fuel
  induction fuel with
  | zero => exact fun _ _ _ _ _ _ _ run => nomatch run
  | succ fuel ih =>
      intro pos i kernel result present aligned bounded run
      obtain ⟨⟨res, item⟩, middle, delivered, run⟩ := bind_eq_ok.mp run
      obtain ⟨inside, rfl, rfl, moved⟩ := rootReader_completed present aligned bounded delivered
      dsimp only at run
      rw [if_neg (not_not.mpr rfl), getD_window (by decide)] at run
      by_cases ended : kernel.drive pos = 0
      · exact ⟨pos, inside, aligned, ended⟩
      · rw [if_neg ended] at run
        obtain ⟨i', run⟩ : ∃ i', (fat16GetTotalItemsLoop (rootReader volume) stream fuel i').run
            middle = .ok result := by
          split at run
          · exact ⟨_, run⟩
          · exact ⟨_, run⟩
        have drive : middle.drive = kernel.drive := by rw [moved, Kernel.setObj_drive]
        have here : middle.objs stream = some (streamPast pos sizeofFatDirectoryItem) := by
          rw [moved, Kernel.setObj_objs_self]
        unfold sizeofFatDirectoryItem at *
        by_cases more : pos + 32 + 32 ≤ 2147483648
        · rw [streamPast_eq (by omega)] at here
          obtain ⟨last, request, aligned', ended⟩ := ih (pos + 32) i' middle here (by omega) more run
          exact ⟨last, request, aligned', drive ▸ ended⟩
        · -- the next position is `-2 ^ 31`
          have wrapped : i32 (pos + 32 : Nat) = -2147483648 := by
            unfold i32
            omega
          unfold streamPast at here
          rw [wrapped] at here
          have stopped := rootReader_wrapped small entries here
            (show (-2147483648 : Int) = -4194304 * 512 by decide) le_rfl (.inl (by decide))
          exact absurd run (fat16GetTotalItemsLoop_stopped stopped)

/-- The region as the header of a boot sector can describe it. -/
structure RootHeader (volume : FatPrivate) : Prop where
  sector : volume.rootSector < 16777216
  entries : volume.header.rootDirEntries < 65536

theorem FatHeader.decode_rootHeader {volume : FatPrivate} {boot : List UInt8}
    (header : volume.header = FatHeader.decode boot) : RootHeader volume := by
  have copies : volume.header.fatCopies < 256 := by
    rw [header]
    exact littleEndian_take_lt (boot.drop 16) 1
  have sectors : volume.header.sectorsPerFat < 65536 := by
    rw [header]
    exact littleEndian_take_lt (boot.drop 22) 2
  have reserved : volume.header.reservedSectors < 65536 := by
    rw [header]
    exact littleEndian_take_lt (boot.drop 14) 2
  refine ⟨?_, ?_⟩
  · have product : volume.header.fatCopies * volume.header.sectorsPerFat ≤ 255 * 65535 :=
      Nat.mul_le_mul (by omega) (by omega)
    unfold FatPrivate.rootSector
    omega
  · rw [header]
    exact littleEndian_take_lt (boot.drop 17) 2

variable {live : List Allocation}

/-- The scan is its loop from the position that the code computes. -/
theorem fat16GetTotalItemsForDirectory_eq (read : StreamRead)
    (mounted : VolumeLive live volume kernel)
    (sectorSize : kernel.disk.sectorSize = peachosSectorSize) (sector : Nat) :
    ∃ sought, OnlyStreams kernel sought ∧ sought.objs volume.directoryStream =
        some (.diskStream { pos := i32 (sector * 512 : Nat), disk := .disk }) ∧
      (fat16GetTotalItemsForDirectory read sector).run kernel =
        (fat16GetTotalItemsLoop read volume.directoryStream 67108866 0).run sought := by
  obtain ⟨sought, seek, only, present⟩ :=
    diskstreamerSeek_at mounted.directoryStream (i32 (sector * 512 : Nat))
  have pos : i32 (u32 ((sector : Int) * kernel.disk.sectorSize)) = i32 (sector * 512 : Nat) := by
    rw [sectorSize]
    unfold peachosSectorSize u32 i32
    omega
  refine ⟨sought, only, present, ?_⟩
  rw [fat16GetTotalItemsForDirectory, bind_of_ok mounted.loadPrivate_run,
    bind_of_ok (run_read _ _)]
  dsimp only
  rw [pos, bind_of_ok seek, if_neg (not_not.mpr rfl)]

/-- A directory that has a zero byte at the start of an entry has the entries before the first
one. -/
theorem exists_directoryAt {drive : Nat → UInt8} {count : Nat} : ∀ {pos : Nat},
    drive (pos + sizeofFatDirectoryItem * count) = 0 →
    ∃ entries, DirectoryAt drive pos entries ∧ entries.length ≤ count := by
  induction count with
  | zero =>
      intro pos ended
      exact ⟨[], (getD_window (by decide)).trans ended, le_rfl⟩
  | succ count ih =>
      intro pos ended
      by_cases here : drive pos = 0
      · exact ⟨[], (getD_window (by decide)).trans here, Nat.zero_le _⟩
      · rw [Nat.mul_succ, Nat.add_comm (sizeofFatDirectoryItem * count), ← Nat.add_assoc] at ended
        obtain ⟨entries, stored, short⟩ := ih ended
        refine ⟨_ :: entries, ⟨rfl, ?_, stored⟩, Nat.succ_le_succ short⟩
        rwa [getD_window (by decide)]

/-- A region that ends has its entries, fewer than it has room for. -/
theorem EndsInRegion.entries {drive : Nat → UInt8} (ends : EndsInRegion volume drive) :
    ∃ entries, DirectoryAt drive (volume.rootSector * 512) entries ∧
      entries.length < volume.header.rootDirEntries ∧
      volume.rootSector * 512 + sizeofFatDirectoryItem * (entries.length + 1) ≤ 2147483648 := by
  obtain ⟨i, within, bounded, ended⟩ := ends
  obtain ⟨entries, stored, short⟩ := exists_directoryAt ended
  refine ⟨entries, stored, Nat.lt_of_le_of_lt short within, ?_⟩
  exact (Nat.add_le_add_left (Nat.mul_le_mul_left _ (Nat.succ_le_succ short)) _).trans bounded

/-- The scan of a region that ends: the confined reader counts the live entries. -/
theorem rootReader_counts (mounted : VolumeLive live volume kernel)
    (sectorSize : kernel.disk.sectorSize = peachosSectorSize) {entries : List (List UInt8)}
    (stored : DirectoryAt kernel.drive (volume.rootSector * 512) entries)
    (inside : entries.length < volume.header.rootDirEntries)
    (bounded : volume.rootSector * 512 + sizeofFatDirectoryItem * (entries.length + 1) ≤
      2147483648) : ∃ next,
    (fat16GetTotalItemsForDirectory (rootReader volume) volume.rootSector).run kernel =
      .ok ((liveCount entries : Int), next) := by
  have size : volume.rootSize = sizeofFatDirectoryItem * volume.header.rootDirEntries := rfl
  have items : EntryReads (RootRequest volume) (volume.rootSector * 512) entries.length := by
    intro k within
    unfold RootRequest SectorRequest
    unfold sizeofFatDirectoryItem at *
    omega
  obtain ⟨next, run, _⟩ := fat16GetTotalItemsForDirectory_counts rootReader_delivers mounted
    sectorSize stored items bounded
  exact ⟨next, run⟩

/-- **The scan** stays in the region exactly when it meets a zero byte there. -/
theorem scanInside_iff (mounted : VolumeLive live volume kernel)
    (sectorSize : kernel.disk.sectorSize = peachosSectorSize) (header : RootHeader volume)
    {result : Int × Kernel}
    (run : (fat16GetTotalItemsForDirectory diskstreamerRead volume.rootSector).run kernel =
      .ok result) :
    ScanInside volume kernel ↔ EndsInRegion volume kernel.drive := by
  have size : volume.rootSize = sizeofFatDirectoryItem * volume.header.rootDirEntries := rfl
  constructor
  · intro inside
    obtain ⟨sought, only, present, scan⟩ := fat16GetTotalItemsForDirectory_eq (rootReader volume)
      mounted sectorSize volume.rootSector
    rw [ScanInside, run, scan] at inside
    have sector := header.sector
    by_cases small : volume.rootSector * 512 < 2147483648
    · rw [i32_natCast small] at present
      obtain ⟨last, ⟨request, after, before⟩, aligned, ended⟩ := rootScan_ends sector header.entries
        _ _ _ sought present (by unfold sizeofFatDirectoryItem; omega)
        (by unfold sizeofFatDirectoryItem; omega) inside
      rw [only.drive] at ended
      obtain ⟨i, place⟩ : ∃ i, last = volume.rootSector * 512 + sizeofFatDirectoryItem * i := by
        refine ⟨(last - volume.rootSector * 512) / sizeofFatDirectoryItem, ?_⟩
        unfold sizeofFatDirectoryItem at aligned ⊢
        omega
      rw [place] at ended
      have whole : volume.rootSector * 512 + sizeofFatDirectoryItem * (i + 1) =
          last + sizeofFatDirectoryItem := by
        rw [place, Nat.mul_succ sizeofFatDirectoryItem i, Nat.add_assoc]
      have bounded := whole.le.trans request.2.2
      have within : i < volume.header.rootDirEntries := by
        unfold sizeofFatDirectoryItem at *
        omega
      exact ⟨i, within, bounded, ended⟩
    · have stopped := rootReader_wrapped sector header.entries present
        (show i32 (volume.rootSector * 512 : Nat) =
          ((volume.rootSector + 4194304 : Int) % 8388608 - 4194304) * 512 by
            unfold i32
            omega) (by omega) (by omega)
      exact absurd inside (fat16GetTotalItemsLoop_stopped stopped)
  · intro ends
    obtain ⟨entries, stored, inside, bounded⟩ := ends.entries
    obtain ⟨next, counted⟩ := rootReader_counts mounted sectorSize stored inside bounded
    rw [ScanInside, counted, fat16GetTotalItemsForDirectory_refines rootReader_refines counted]

end Readers

/-- The root directory was loaded to `dir`, which has room for the entries of the region. -/
structure RootLoaded (region : KernelRegion) (live : List Allocation) (volume : FatPrivate)
    (next : Kernel) (items dir : Nat) (contents : List UInt8) : Prop where
  invariant : KernelInvariant region live next
  mounted : VolumeLive live (volume.withRoot dir items) next
  buffer : next.objs dir = some (.bytes contents)
  length : contents.length = volume.rootSize
  held : ∃ allocation ∈ live, allocation.ptr = dir

section Load

variable {region : KernelRegion} {live : List Allocation} {kernel next : Kernel}
  {volume : FatPrivate} {read : StreamRead}

/-- **A completed load** of any disk: as many entries are counted as the scan says, and as many
are in the buffer as the header says. -/
theorem fat16GetRootDirectory_loads (reads : ReadsStreams read)
    (inv : KernelInvariant region live kernel) (mounted : VolumeLive live volume kernel)
    (sectorSize : kernel.disk.sectorSize = peachosSectorSize) (header : RootHeader volume)
    (nonempty : 1 ≤ volume.header.rootDirEntries)
    (run : (fat16GetRootDirectory read kernel.disk.fsPrivate).run kernel = .ok (0, next)) :
    ∃ (live' : List Allocation) (items : Nat) (counted : Kernel) (dir : Nat)
      (contents : List UInt8), (fat16GetTotalItemsForDirectory read volume.rootSector).run
        kernel = .ok ((items : Int), counted) ∧
      RootLoaded region live' volume next items dir contents ∧ next.disk = kernel.disk := by
  have size : volume.rootSize = sizeofFatDirectoryItem * volume.header.rootDirEntries := rfl
  have entries := header.entries
  have sector := header.sector
  unfold sizeofFatDirectoryItem at size
  obtain ⟨total, counted, dir, allocated, streamed, out, wrote, value, count, requested, notNull,
    moved, write, present, last⟩ :=
    fat16GetRootDirectory_steps reads sectorSize mounted.fsPrivate (by omega) run
  obtain ⟨only, items, rfl, _⟩ := fat16GetTotalItemsForDirectory_completed reads mounted count
  rcases kmalloc_positive (only.invariant inv) (by omega) (by omega) requested with
    ⟨null, _⟩ | placed
  · exact absurd null notNull
  have buffer := moved.kept placed.present rfl
  obtain ⟨zeros, before, fits, same⟩ := writeBytes_eq_ok write
  rw [buffer] at before
  cases before
  rw [List.length_replicate, Nat.zero_add] at fits
  rw [List.take_zero, List.nil_append, Nat.zero_add] at same
  generalize filled : out ++ List.drop out.length _ = contents at same
  have length : contents.length = volume.rootSize := by
    rw [← filled, List.length_append, List.length_drop, List.length_replicate]
    omega
  have grown := ((((Grown.refl inv).streams only).placed placed).streams moved).setObj
    (fun allocation member => placed.fresh allocation member) (by rw [buffer]; rfl)
    (.bytes contents)
  rw [← same] at grown
  have after := mounted.grown grown
  have there := after.fsPrivate
  rw [grown.disk, present] at there
  cases there
  have image : wrote.objs dir = some (.bytes contents) := by
    rw [same]
    exact Kernel.setObj_objs_self ..
  have written := @VolumeLive.setPrivate _ _ _ after (volume.withRoot dir items) rfl
  have kept := after.setPrivate_objs (volume.withRoot dir items) image rfl
  rw [grown.disk] at written kept
  refine ⟨⟨dir, volume.rootSize⟩ :: live, items, counted, dir, contents, count, ?_, ?_⟩
  · rw [last]
    exact ⟨grown.invariant.setObj (by rw [present]; rfl) _, written, kept, length, _,
      List.mem_cons_self, rfl⟩
  · rw [last, Kernel.setObj_disk, grown.disk]

/-- The count is one of entries of the region, the scan stays in it, and the search of any name
goes over entries that were loaded. -/
structure RootWithin (volume : FatPrivate) (kernel next : Kernel) (directory : FatDirectory) :
    Prop where
  nonnegative : 0 ≤ directory.total
  atMost : directory.total ≤ volume.header.rootDirEntries
  scan : ScanInside volume kernel
  search : ∀ (name : List UInt8) (i fItem : Nat) (middle : Kernel), (i : Int) < directory.total →
    (fat16FindItemLoop diskstreamerRead directory name i 0 0).run next = .ok (fItem, middle) →
    ∃ raw, (loadDirectoryItem directory.item i).run middle = .ok (raw, middle)

/-- The buffer is still there wherever the search has come to. -/
theorem RootLoaded.search {live' : List Allocation} {items dir : Nat} {contents : List UInt8}
    (loaded : RootLoaded region live' volume next items dir contents)
    (inside : items ≤ volume.header.rootDirEntries) {name : List UInt8} {i fItem : Nat}
    {middle : Kernel} (before : i < items)
    (run : (fat16FindItemLoop diskstreamerRead (volume.withRoot dir items).rootDirectory name i 0
      0).run next = .ok (fItem, middle)) :
    ∃ raw, (loadDirectoryItem dir i).run middle = .ok (raw, middle) := by
  have size : volume.rootSize = sizeofFatDirectoryItem * volume.header.rootDirEntries := rfl
  have length := loaded.length
  have buffer : middle.objs dir = some (.bytes contents) := by
    rcases fat16FindItemLoop_completed diskstreamerRead_readsStreams i 0 0 live' next
      loaded.invariant loaded.mounted loaded.buffer loaded.held run with
      ⟨_, rfl⟩ | ⟨_, _, _, _, _, _, _, grown, _, _⟩
    · exact loaded.buffer
    · exact (grown.keeps loaded.held).obj loaded.buffer rfl
  refine ⟨_, @loadDirectoryItem_run middle (volume.withRoot dir items).rootDirectory contents
    buffer i ?_⟩
  rw [length, size]
  exact Nat.mul_le_mul_left _ (by omega)

/-- **The bounds of the root directory.** A completed load counts and searches within the entries
of the region, if and only if one of them starts with a zero byte at a position that an `int` can
hold. -/
theorem rootWithin_iff {volume' : FatPrivate} {boot : List UInt8}
    (inv : KernelInvariant region live kernel) (mounted : VolumeLive live volume kernel)
    (sectorSize : kernel.disk.sectorSize = peachosSectorSize)
    (header : volume.header = FatHeader.decode boot)
    (nonempty : 1 ≤ volume.header.rootDirEntries)
    (run : (fat16GetRootDirectory diskstreamerRead kernel.disk.fsPrivate).run kernel =
      .ok (0, next))
    (loaded : next.objs kernel.disk.fsPrivate = some (.fatPrivate volume')) :
    RootWithin volume kernel next volume'.rootDirectory ↔ EndsInRegion volume kernel.drive := by
  have bounds := FatHeader.decode_rootHeader header
  obtain ⟨live', items, counted, dir, contents, count, root, disk⟩ := fat16GetRootDirectory_loads
    diskstreamerRead_readsStreams inv mounted sectorSize bounds nonempty run
  have present := root.mounted.fsPrivate
  rw [disk, loaded] at present
  cases present
  have scan := scanInside_iff mounted sectorSize bounds count
  refine ⟨fun within => scan.mp within.scan, fun ends => ?_⟩
  obtain ⟨entries, stored, inside, bounded⟩ := ends.entries
  obtain ⟨_, confined⟩ := rootReader_counts mounted sectorSize stored inside bounded
  have few : items ≤ volume.header.rootDirEntries := by
    have same := fat16GetTotalItemsForDirectory_refines rootReader_refines confined
    rw [count] at same
    have least := liveCount_le entries
    have equal : items = liveCount entries :=
      Int.ofNat_inj.mp (Prod.mk.inj (Except.ok.inj same)).1
    omega
  refine ⟨Int.natCast_nonneg _, Int.ofNat_le.mpr few, scan.mpr ends, ?_⟩
  intro name i fItem middle before searched
  exact root.search few (Int.ofNat_lt.mp before) searched

end Load

/-- A root directory of a deleted entry and two others. -/
def threeEntriesImage : List (Nat × UInt8) := [(1024, 0xE5), (1056, 65), (1088, 66)]

/-- That root directory is counted within its region. -/
theorem rootWithin_boot : ∃ kernel next volume volume',
    (fat16Resolve diskstreamerRead).run (bootWithDisk threeEntriesImage) = .ok (0, kernel) ∧
      (fat16GetRootDirectory diskstreamerRead kernel.disk.fsPrivate).run kernel = .ok (0, next) ∧
      next.objs kernel.disk.fsPrivate = some (.fatPrivate volume') ∧
      volume'.rootDirectory.total = 2 ∧ RootWithin volume kernel next volume'.rootDirectory := by
  obtain ⟨live, kernel, volume, mount, ready, header, room, _⟩ :=
    @fat16Resolve_boot threeEntriesImage [0xE5 :: List.replicate 31 0, 65 :: List.replicate 31 0,
      66 :: List.replicate 31 0] (by decide +kernel) (by decide +kernel) (by decide)
  have size : volume.rootSize = 512 := by
    unfold FatPrivate.rootSize
    rw [header]
    decide
  have entries : volume.header.rootDirEntries = 16 := by
    rw [header]
    decide
  have sector : volume.rootSector = 2 := by
    unfold FatPrivate.rootSector
    rw [header]
    decide
  obtain ⟨live', next, dir, run, built⟩ := ready.reload room (by rw [size]; decide)
  have loaded := built.mounted.fsPrivate
  rw [built.globals] at loaded
  obtain ⟨_, _, _, _, _, _, ended⟩ := ready.root.stored
  rw [DirectoryAt, getD_window (by decide), sector] at ended
  refine ⟨kernel, next, volume, _, mount, run, loaded, rfl, ?_⟩
  refine (rootWithin_iff ready.invariant ready.mounted ready.sectorSize header (by omega) run
    loaded).mpr ⟨3, by omega, ?_, ?_⟩
  · rw [sector]
    decide
  · rw [sector]
    exact ended

/-- A root directory of 16 entries, all of them in use, with another live entry behind it. -/
def fullRootImage : List (Nat × UInt8) :=
  (List.range 17).map fun i => (1024 + sizeofFatDirectoryItem * i, 65)

/-- The disk is mounted with 17 entries in a root directory that has 16. -/
theorem rootDirectory_overrun : ∃ next volume,
    (fat16Resolve diskstreamerRead).run (bootWithDisk fullRootImage) = .ok (0, next) ∧
      next.objs next.disk.fsPrivate = some (.fatPrivate volume) ∧
      volume.header.rootDirEntries = 16 ∧ volume.rootDirectory.total = 17 := by
  have header : FatHeader.decode (window (bootWithDisk fullRootImage).drive 0 sizeofFatH) =
      FatHeader.decode (window (imageOf smallHeader) 0 sizeofFatH) := by decide +kernel
  have stored : DirectoryAt (bootWithDisk fullRootImage).drive 1024
      (List.replicate 17 (65 :: List.replicate 31 0)) := by decide +kernel
  have inv : KernelInvariant kernelHeapRegion [] (bootWithDisk fullRootImage) :=
    (freshKernel_invariant kernelHeapRegion).of_same rfl rfl
  obtain ⟨_, next, volume, run, loaded, same, _⟩ := fat16Resolve_loads inv
    (bootWithDisk_room fullRootImage) rfl rfl (by rw [header]; decide)
    (by rw [header]; exact ⟨stored, by decide, by decide, by decide⟩) (by rw [header]; decide)
  refine ⟨next, volume, run, loaded.mounted.fsPrivate, ?_, ?_⟩
  · rw [same, header]
    decide
  · have live : liveCount (List.replicate 17 (65 :: List.replicate 31 0)) = 17 := by decide
    rw [loaded.rootDirectory, FatPrivate.withRoot, live]
    rfl

end Peachos
