import Peachos.Fs.DirectoryRegion

/-! # Loading the root directory

`fat16_get_root_directory` counts the live entries of the root directory, and then reads all bytes
of its region.
-/

namespace Peachos

open CInt Window

/-- The first sector of the root directory. -/
def FatPrivate.rootSector (volume : FatPrivate) : Nat :=
  volume.header.fatCopies * volume.header.sectorsPerFat + volume.header.reservedSectors

/-- The size of the region of the root directory. -/
def FatPrivate.rootSize (volume : FatPrivate) : Nat :=
  sizeofFatDirectoryItem * volume.header.rootDirEntries

/-- The volume with its root directory loaded to `dir`. -/
def FatPrivate.withRoot (volume : FatPrivate) (dir total : Nat) : FatPrivate :=
  { volume with
    rootDirectory := {
      item := dir
      total := total
      sectorPos := volume.rootSector
      endingSectorPos := (volume.rootSector + (volume.rootSize + 511) / 512 : Nat) } }

/-- The root directory has the given entries, and ends inside its region, which lies at positions
that an `int` can hold. -/
structure RootOnDisk (volume : FatPrivate) (drive : Nat → UInt8) (entries : List (List UInt8)) :
    Prop where
  stored : DirectoryAt drive (volume.rootSector * 512) entries
  ends : entries.length < volume.header.rootDirEntries
  placed : volume.rootSector * 512 + volume.rootSize ≤ 2147483648

/-- The root directory has the given entries, which may go on behind its region. -/
structure RootStored (volume : FatPrivate) (drive : Nat → UInt8) (entries : List (List UInt8)) :
    Prop where
  stored : DirectoryAt drive (volume.rootSector * 512) entries
  nonempty : 1 ≤ volume.header.rootDirEntries
  counted : volume.rootSector * 512 + sizeofFatDirectoryItem * (entries.length + 1) ≤ 2147483648
  placed : volume.rootSector * 512 + volume.rootSize ≤ 2147483648

theorem RootOnDisk.toStored {volume : FatPrivate} {drive : Nat → UInt8}
    {entries : List (List UInt8)} (root : RootOnDisk volume drive entries) :
    RootStored volume drive entries where
  stored := root.stored
  nonempty := Nat.lt_of_le_of_lt (Nat.zero_le _) root.ends
  counted := by
    have within : sizeofFatDirectoryItem * (entries.length + 1) ≤ volume.rootSize :=
      Nat.mul_le_mul_left _ root.ends
    exact (Nat.add_le_add_left within _).trans root.placed
  placed := root.placed

theorem FatPrivate.rootSector_of_header {volume volume' : FatPrivate}
    (same : volume'.header = volume.header) : volume'.rootSector = volume.rootSector := by
  unfold FatPrivate.rootSector
  rw [same]

theorem FatPrivate.rootSize_of_header {volume volume' : FatPrivate}
    (same : volume'.header = volume.header) : volume'.rootSize = volume.rootSize := by
  unfold FatPrivate.rootSize
  rw [same]

theorem RootStored.of_header {volume volume' : FatPrivate} {drive : Nat → UInt8}
    {entries : List (List UInt8)} (root : RootStored volume drive entries)
    (same : volume'.header = volume.header) : RootStored volume' drive entries := by
  have sector := FatPrivate.rootSector_of_header same
  have size := FatPrivate.rootSize_of_header same
  refine ⟨?_, ?_, ?_, ?_⟩
  · rw [sector]
    exact root.stored
  · rw [same]
    exact root.nonempty
  · rw [sector]
    exact root.counted
  · rw [sector, size]
    exact root.placed

/-- Where the root directory is, the header says. -/
theorem RootOnDisk.of_header {volume volume' : FatPrivate} {drive : Nat → UInt8}
    {entries : List (List UInt8)} (root : RootOnDisk volume drive entries)
    (same : volume'.header = volume.header) : RootOnDisk volume' drive entries := by
  have sector := FatPrivate.rootSector_of_header same
  have size := FatPrivate.rootSize_of_header same
  refine ⟨?_, ?_, ?_⟩
  · rw [sector]
    exact root.stored
  · rw [same]
    exact root.ends
  · rw [sector, size]
    exact root.placed

/-- The state after the root directory was loaded to `dir`. -/
structure RootBuilt (region : KernelRegion) (live : List Allocation) (volume : FatPrivate)
    (kernel next : Kernel) (entries : List (List UInt8)) (dir : Nat) : Prop where
  invariant : KernelInvariant region live next
  mounted : VolumeLive live (volume.withRoot dir (liveCount entries)) next
  buffer : next.objs dir =
    some (.bytes (window kernel.drive (volume.rootSector * 512) volume.rootSize))
  held : ∃ allocation ∈ live, allocation.ptr = dir
  globals : kernel.SameGlobals next

section Load

variable {region : KernelRegion} {live : List Allocation} {kernel : Kernel}
  {volume : FatPrivate} {read : StreamRead} {request : Nat → Nat → Prop}
  {entries : List (List UInt8)}

/-- What the code computes for the sectors of the root directory. -/
theorem rootSectors_eq (size : Nat) :
    (if (size : Int).tmod peachosSectorSize ≠ 0 then (size : Int).tdiv peachosSectorSize + 1
      else (size : Int).tdiv peachosSectorSize) = ((size + 511) / 512 : Nat) := by
  rw [show (size : Int).tmod peachosSectorSize = (size % 512 : Nat) from rfl,
    show (size : Int).tdiv peachosSectorSize = (size / 512 : Nat) from rfl]
  split <;> omega

theorem FatPrivate.rootSize_cast (volume : FatPrivate) :
    (volume.header.rootDirEntries : Int) * sizeofFatDirectoryItem = volume.rootSize := by
  unfold FatPrivate.rootSize sizeofFatDirectoryItem
  omega

theorem FatPrivate.rootSector_cast (volume : FatPrivate) :
    (volume.header.fatCopies : Int) * volume.header.sectorsPerFat +
      volume.header.reservedSectors = volume.rootSector := by
  unfold FatPrivate.rootSector
  push_cast
  rfl

theorem divide_sectorSize (sectorSize : kernel.disk.sectorSize = peachosSectorSize)
    (dividend : Int) : (divide dividend kernel.disk.sectorSize).run kernel =
      .ok (dividend.tdiv peachosSectorSize, kernel) := by
  rw [sectorSize, divide, if_neg (by decide), Exec.run_pure]

theorem remainder_sectorSize (sectorSize : kernel.disk.sectorSize = peachosSectorSize)
    (dividend : Int) : (remainder dividend kernel.disk.sectorSize).run kernel =
      .ok (dividend.tmod peachosSectorSize, kernel) := by
  rw [sectorSize, remainder, if_neg (by decide), Exec.run_pure]

/-- The steps of a completed load: it has counted the entries, filled a new buffer and written down
where the root directory is. -/
theorem fat16GetRootDirectory_steps (reads : ReadsStreams read)
    (sectorSize : kernel.disk.sectorSize = peachosSectorSize) {fatPrivate : Nat}
    (here : kernel.objs fatPrivate = some (.fatPrivate volume))
    (small : volume.rootSector < 4294967296) {next : Kernel}
    (run : (fat16GetRootDirectory read fatPrivate).run kernel = .ok (0, next)) :
    ∃ total counted dir allocated streamed out wrote value,
      (fat16GetTotalItemsForDirectory read volume.rootSector).run kernel = .ok (total, counted) ∧
      (kzalloc volume.rootSize (.bytes (List.replicate volume.rootSize 0))).run counted =
        .ok (dir, allocated) ∧ dir ≠ 0 ∧ OnlyStreams allocated streamed ∧
      (writeBytes dir 0 out).run streamed = .ok ((), wrote) ∧
      wrote.objs fatPrivate = some (.fatPrivate value) ∧
      next = wrote.setObj fatPrivate (some (.fatPrivate { value with
        rootDirectory := {
          item := dir
          total := total
          sectorPos := volume.rootSector
          endingSectorPos := (volume.rootSector + (volume.rootSize + 511) / 512 : Nat) } })) := by
  have loaded : (load Obj.fatPrivate? fatPrivate).run kernel = .ok (volume, kernel) :=
    load_of_obj here rfl
  unfold fat16GetRootDirectory at run
  rw [Exec.bind_of_ok loaded, Exec.bind_of_ok (Exec.run_read _ _)] at run
  dsimp only at run
  rw [volume.rootSize_cast, volume.rootSector_cast,
    Exec.bind_of_ok (divide_sectorSize sectorSize _),
    Exec.bind_of_ok (remainder_sectorSize sectorSize _), u32_natCast small,
    Int.toNat_natCast] at run
  obtain ⟨total, counted, count, run₁⟩ := Exec.bind_eq_ok.mp run
  obtain ⟨dir, allocated, requested, run₂⟩ := Exec.bind_eq_ok.mp run₁
  by_cases notNull : dir = 0
  · rw [if_pos notNull] at run₂
    cases run₂
  rw [if_neg notNull] at run₂
  obtain ⟨sought, middle, seek, run₃⟩ := Exec.bind_eq_ok.mp run₂
  obtain ⟨only₁, rfl⟩ := diskstreamerSeek_streams _ _ allocated _ middle (.refl _) seek
  rw [if_neg (not_not.mpr rfl)] at run₃
  obtain ⟨⟨res, out⟩, streamed, delivered, run₄⟩ := Exec.bind_eq_ok.mp run₃
  have only₂ := (reads.moves _ _ _ middle _ streamed only₁ delivered).1
  obtain ⟨_, wrote, write, run₅⟩ := Exec.bind_eq_ok.mp run₄
  by_cases failed : res ≠ peachosAllOk
  · rw [if_pos failed] at run₅
    obtain ⟨_, _, _, run₆⟩ := Exec.bind_eq_ok.mp run₅
    cases run₆
  rw [if_neg failed] at run₅
  obtain ⟨found, value, present, typed, run₆⟩ := load_bind_eq_ok.mp run₅
  cases found <;> cases typed
  obtain ⟨_, run₇⟩ := store_bind_eq_ok.mp run₆
  rw [rootSectors_eq] at run₇
  cases run₇
  exact ⟨total, counted, dir, allocated, streamed, out, wrote, value, count, requested, notNull,
    only₂, write, present, rfl⟩

/-- The load, once its buffer is allocated. -/
theorem fat16GetRootDirectory_of_placed (delivers : Delivers read request)
    (inv : KernelInvariant region live kernel)
    (requested : request (volume.rootSector * 512) volume.rootSize)
    (mounted : VolumeLive live volume kernel)
    (sectorSize : kernel.disk.sectorSize = peachosSectorSize)
    (root : RootStored volume kernel.drive entries) {counted allocated : Kernel} {dir : Nat}
    (count : (fat16GetTotalItemsForDirectory read volume.rootSector).run kernel =
      .ok ((liveCount entries : Int), counted)) (only : OnlyStreams kernel counted)
    (run : (kzalloc volume.rootSize (.bytes (List.replicate volume.rootSize 0))).run counted =
      .ok (dir, allocated))
    (placed : Placed region live (⟨dir, volume.rootSize⟩ :: live) counted
      (.bytes (List.replicate volume.rootSize 0)) dir allocated) :
    ∃ next, (fat16GetRootDirectory read kernel.disk.fsPrivate).run kernel = .ok (0, next) ∧
      RootBuilt region (⟨dir, volume.rootSize⟩ :: live) volume kernel next entries dir := by
  have bound := root.placed
  have nonempty := root.nonempty
  have positive : sizeofFatDirectoryItem ≤ volume.rootSize := by
    unfold FatPrivate.rootSize sizeofFatDirectoryItem
    omega
  unfold sizeofFatDirectoryItem at positive
  have loaded : (load Obj.fatPrivate? kernel.disk.fsPrivate).run kernel = .ok (volume, kernel) :=
    load_of_obj mounted.fsPrivate rfl
  have grown := ((Grown.refl inv).streams only).placed placed
  have after := mounted.grown grown
  obtain ⟨sought, seek, only₁, atRoot⟩ :=
    diskstreamerSeek_run after.directoryStream (volume.rootSector * 512)
  obtain ⟨streamed, done, only₂⟩ := delivers.run atRoot requested
  have moved := only₁.trans only₂
  have contents : sought.drive = kernel.drive := by rw [only₁.drive, grown.drive]
  rw [contents] at done
  have buffer := moved.kept placed.present rfl
  have wrote := @writeBytes_run _ _ 0 _
    (window kernel.drive (volume.rootSector * 512) volume.rootSize) buffer
    (by rw [length_window, List.length_replicate, Nat.zero_add])
  have grown' := grown.streams moved
  have whole := grown'.setObj (fun allocation member => placed.fresh allocation member)
    (by rw [buffer]; rfl) (.bytes (window kernel.drive (volume.rootSector * 512) volume.rootSize))
  have mounted' := mounted.grown whole
  have pos : fat16SectorToAbsolute kernel.disk volume.rootSector =
      (volume.rootSector * 512 : Nat) := by
    unfold fat16SectorToAbsolute peachosSectorSize at *
    rw [sectorSize, i32_of_range (by omega) (by omega)]
    omega
  rw [List.take_zero, List.nil_append, length_window, Nat.zero_add,
    List.drop_eq_nil_of_le (by rw [List.length_replicate]), List.append_nil] at wrote
  generalize filled : streamed.setObj dir _ = last at wrote whole mounted'
  have present : last.objs kernel.disk.fsPrivate = some (.fatPrivate volume) := by
    rw [← whole.disk]
    exact mounted'.fsPrivate
  have reloaded : (load Obj.fatPrivate? kernel.disk.fsPrivate).run last = .ok (volume, last) :=
    load_of_obj present rfl
  have there : (last.objs kernel.disk.fsPrivate).isSome := by
    rw [present]
    rfl
  refine ⟨last.setObj kernel.disk.fsPrivate
    (some (.fatPrivate (volume.withRoot dir (liveCount entries)))), ?_, ?_⟩
  · unfold fat16GetRootDirectory
    rw [Exec.bind_of_ok loaded, Exec.bind_of_ok (Exec.run_read _ _)]
    dsimp only
    rw [volume.rootSize_cast, volume.rootSector_cast,
      Exec.bind_of_ok (divide_sectorSize sectorSize _),
      Exec.bind_of_ok (remainder_sectorSize sectorSize _), u32_natCast (by omega),
      Exec.bind_of_ok count, Int.toNat_natCast, Exec.bind_of_ok run, if_neg placed.notNull, pos,
      Exec.bind_of_ok seek, if_neg (not_not.mpr rfl)]
    refine (Exec.bind_of_ok done).trans ?_
    dsimp only
    rw [Exec.bind_of_ok wrote, if_neg (not_not.mpr rfl), Exec.bind_of_ok reloaded,
      Exec.bind_of_ok (store_of_live there), Exec.run_pure, rootSectors_eq]
    rfl
  · have image : last.objs dir = some (.bytes (window kernel.drive (volume.rootSector * 512)
        volume.rootSize)) := by
      rw [← filled]
      exact Kernel.setObj_objs_self ..
    have written := @VolumeLive.setPrivate _ _ _ mounted'
      (volume.withRoot dir (liveCount entries)) rfl
    have kept := mounted'.setPrivate_objs (volume.withRoot dir (liveCount entries)) image rfl
    rw [whole.disk] at written kept
    exact ⟨whole.invariant.setObj there _, written, kept, ⟨_, List.mem_cons_self, rfl⟩,
      whole.globals.trans rfl⟩

/-- **Loading the root directory.** A completed load has the number of live entries, and all
bytes of the region. -/
theorem fat16GetRootDirectory_completed (reads : ReadsStreams read)
    (delivers : Delivers read request) (items : ItemRequests request) (requested : request (volume.rootSector * 512) volume.rootSize)
    (inv : KernelInvariant region live kernel) (mounted : VolumeLive live volume kernel)
    (sectorSize : kernel.disk.sectorSize = peachosSectorSize)
    (root : RootOnDisk volume kernel.drive entries) {next : Kernel}
    (run : (fat16GetRootDirectory read kernel.disk.fsPrivate).run kernel = .ok (0, next)) :
    ∃ live' dir, RootBuilt region live' volume kernel next entries dir := by
  have bound := root.placed
  have more := root.ends
  have size : volume.rootSize = sizeofFatDirectoryItem * volume.header.rootDirEntries := rfl
  unfold sizeofFatDirectoryItem at size
  obtain ⟨counted, count, only⟩ := fat16GetTotalItemsForDirectory_run delivers items mounted
    sectorSize root.stored (by
      unfold sizeofFatDirectoryItem
      omega)
  obtain ⟨_, _, dir, allocated, _, _, _, _, count', request', notNull, _⟩ :=
    fat16GetRootDirectory_steps reads sectorSize mounted.fsPrivate (by omega) run
  rw [count] at count'
  cases count'
  rcases kmalloc_positive (only.invariant inv) (by omega) (by omega) request' with
    ⟨null, _⟩ | placed
  · exact absurd null notNull
  · obtain ⟨last, done, built⟩ := fat16GetRootDirectory_of_placed delivers inv requested mounted
      sectorSize root.toStored count only request' placed
    rw [done] at run
    cases run
    exact ⟨_, dir, built⟩

end Load

end Peachos
