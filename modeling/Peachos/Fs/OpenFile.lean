import Peachos.Fs.ClusterRead
import Peachos.Fs.File

/-! # Seeking and reading in an open file

`OpenFile` says that a file number leads through the descriptor table to a regular file at
a position. `fseek` sets the position and `fread` delivers what the recursion over the
cluster chain delivers from there. The bytes are those of the file when the position is
at the start of a cluster; `seekRead_correct_iff` is the exact condition.
-/

namespace Peachos

open CInt Window

/-- The objects behind a file number. -/
structure FilePointers where
  desc : Nat
  descriptor : Nat
  item : Nat
  entry : Nat

/-- `fd` is open on the regular file with the directory entry `raw`, at position `pos`. -/
structure OpenFile (kernel : Kernel) (fd : Nat) (ptrs : FilePointers) (raw : List UInt8)
    (pos : Nat) : Prop where
  positive : 1 ≤ fd
  inTable : fd < peachosMaxFileDescriptors
  slot : kernel.fileDescriptors[fd - 1]? = some ptrs.desc
  descNotNull : ptrs.desc ≠ 0
  desc : kernel.objs ptrs.desc = some (.fileDescriptor {
    index := fd
    filesystem := some .fat16
    privateData := ptrs.descriptor
    disk := .disk })
  descriptor : kernel.objs ptrs.descriptor =
    some (.fatFileDescriptor { item := ptrs.item, pos := pos })
  item : kernel.objs ptrs.item =
    some (.fatItem { pointer := ptrs.entry, type := fatItemTypeFile })
  entry : kernel.objs ptrs.entry = some (.bytes raw)

/-- The first cluster of the file with the given directory entry. -/
def firstCluster (raw : List UInt8) : Nat := fat16GetFirstCluster (FatDirectoryItem.decode raw)

/-- The size of the file with the given directory entry. -/
def fileSize (raw : List UInt8) : Nat := (FatDirectoryItem.decode raw).filesize

section Calls

variable {kernel : Kernel} {fd : Nat} {ptrs : FilePointers} {raw : List UInt8} {pos : Nat}

theorem OpenFile.of_onlyStreams (file : OpenFile kernel fd ptrs raw pos) {next : Kernel}
    (only : OnlyStreams kernel next) : OpenFile next fd ptrs raw pos where
  positive := file.positive
  inTable := file.inTable
  slot := by rw [only.globals]; exact file.slot
  descNotNull := file.descNotNull
  desc := only.kept file.desc rfl
  descriptor := only.kept file.descriptor rfl
  item := only.kept file.item rfl
  entry := only.kept file.entry rfl

theorem OpenFile.load_desc (file : OpenFile kernel fd ptrs raw pos) :
    (load Obj.fileDescriptor? ptrs.desc).run kernel = .ok ({
      index := fd
      filesystem := some .fat16
      privateData := ptrs.descriptor
      disk := .disk }, kernel) :=
  load_of_obj file.desc rfl

theorem OpenFile.load_descriptor (file : OpenFile kernel fd ptrs raw pos) :
    (load Obj.fatFileDescriptor? ptrs.descriptor).run kernel =
      .ok ({ item := ptrs.item, pos := pos }, kernel) :=
  load_of_obj file.descriptor rfl

theorem OpenFile.load_item (file : OpenFile kernel fd ptrs raw pos) :
    (load Obj.fatItem? ptrs.item).run kernel =
      .ok ({ pointer := ptrs.entry, type := fatItemTypeFile }, kernel) :=
  load_of_obj file.item rfl

theorem OpenFile.load_entry (file : OpenFile kernel fd ptrs raw pos) :
    (load Obj.bytes? ptrs.entry).run kernel = .ok (raw, kernel) :=
  load_of_obj file.entry rfl

/-- The slot of a number that the table gives out. -/
theorem fileGetDescriptor_slot {index desc : Nat} (inside : index + 1 < peachosMaxFileDescriptors)
    (slot : kernel.fileDescriptors[index]? = some desc) :
    (fileGetDescriptor (index + 1 : Nat)).run kernel = .ok (desc, kernel) := by
  rw [fileGetDescriptor, if_neg (by unfold peachosMaxFileDescriptors at *; omega)]
  apply Exec.demand_of_some
  rw [if_pos (by omega), show (((index + 1 : Nat) : Int) - 1).toNat = index by omega]
  exact slot

/-- Numbers from 512 on are refused. -/
theorem fileGetDescriptor_beyond {number : Int} (beyond : peachosMaxFileDescriptors ≤ number) :
    (fileGetDescriptor number).run kernel = .ok (0, kernel) := by
  rw [fileGetDescriptor, if_pos (.inr beyond), Exec.run_pure]

theorem fileGetDescriptor_run (file : OpenFile kernel fd ptrs raw pos) :
    (fileGetDescriptor fd).run kernel = .ok (ptrs.desc, kernel) := by
  obtain ⟨index, rfl⟩ : ∃ index, fd = index + 1 := ⟨fd - 1, (Nat.sub_add_cancel file.positive).symm⟩
  exact fileGetDescriptor_slot file.inTable file.slot

theorem theFilesystem_run (filesystem : Filesystem) :
    (theFilesystem (some filesystem)).run kernel = .ok (filesystem, kernel) :=
  Exec.demand_of_some rfl

/-- Seeking inside the file sets its position. -/
theorem fseek_run (file : OpenFile kernel fd ptrs raw pos) {offset : Nat}
    (inside : offset < fileSize raw) (small : offset < 4294967296) :
    (fseek fd offset seekSet).run kernel = .ok (0, kernel.setObj ptrs.descriptor
      (some (.fatFileDescriptor { item := ptrs.item, pos := offset }))) := by
  have within : ¬ offset ≥ (FatDirectoryItem.decode raw).filesize := Nat.not_le.mpr inside
  rw [fseek, Exec.bind_of_ok (fileGetDescriptor_run file), if_neg file.descNotNull,
    Exec.bind_of_ok file.load_desc, Exec.bind_of_ok (theFilesystem_run _), u32_natCast small]
  dsimp only
  rw [fat16Seek, Exec.bind_of_ok file.load_descriptor, Exec.bind_of_ok file.load_item, if_neg (not_not.mpr rfl),
    Exec.bind_of_ok file.load_entry, if_neg within, if_pos rfl,
    Exec.bind_of_ok (store_of_live (by rw [file.descriptor]; rfl)), Exec.run_pure]

/-- The file after its position was set. -/
theorem OpenFile.sought (file : OpenFile kernel fd ptrs raw pos) (offset : Nat) :
    OpenFile (kernel.setObj ptrs.descriptor
      (some (.fatFileDescriptor { item := ptrs.item, pos := offset }))) fd ptrs raw offset := by
  constructor
  · exact file.positive
  · exact file.inTable
  · exact file.slot
  · exact file.descNotNull
  · rw [Kernel.setObj_objs_of_ne _ _ (Kernel.ne_of_objs file.desc file.descriptor nofun), file.desc]
  · exact Kernel.setObj_objs_self ..
  · rw [Kernel.setObj_objs_of_ne _ _ (Kernel.ne_of_objs file.item file.descriptor nofun), file.item]
  · rw [Kernel.setObj_objs_of_ne _ _ (Kernel.ne_of_objs file.entry file.descriptor nofun), file.entry]

variable {read : StreamRead} {request : Nat → Nat → Prop} {volume : FatPrivate}

/-- The kernel after `fread` has filled its buffer and moved the file position. -/
def afterRead (kernel : Kernel) (ptrs : FilePointers) (buf pos size : Nat)
    (contents out : List UInt8) : Kernel :=
  (kernel.setObj buf (some (.bytes (out ++ contents.drop out.length)))).setObj ptrs.descriptor
    (some (.fatFileDescriptor { item := ptrs.item, pos := pos + size }))

/-- A read goes to the filesystem of the descriptor. -/
theorem fread_eq (file : OpenFile kernel fd ptrs raw pos) {buf size nmemb : Nat}
    (positive : 1 ≤ size) (several : 1 ≤ nmemb) :
    (fread read buf size nmemb fd).run kernel =
      (fat16Read read ptrs.descriptor size nmemb buf).run kernel := by
  have valid : ¬ (size = 0 ∨ nmemb = 0 ∨ (fd : Int) < 1) := by
    have open' := file.positive
    omega
  rw [fread, if_neg valid, Exec.bind_of_ok (fileGetDescriptor_run file),
    if_neg file.descNotNull, Exec.bind_of_ok file.load_desc, Exec.bind_of_ok (theFilesystem_run _)]
  dsimp only
  rw [theDisk, if_pos rfl, Exec.bind_of_ok (Exec.run_pure _ _)]

/-- The requests for the pieces of a read lie on the disk. -/
def ReadOnDisk (request : Nat → Nat → Prop) (volume : FatPrivate) (drive : Nat → UInt8)
    (first pos size : Nat) : Prop :=
  ∀ piece, piece = 0 ∨ piece * clusterBytes volume < size →
    PieceReadable request volume drive first (pos + piece * clusterBytes volume)
      (size - piece * clusterBytes volume)

/-- What the recursion delivers for a request. -/
def delivered (volume : FatPrivate) (drive : Nat → UInt8) (first pos size : Nat) : List UInt8 :=
  window (assembled (requestPieces volume drive first pos) (clusterBytes volume)) 0 size

/-- The loop for one element writes the bytes that were read, also when the read failed. -/
theorem fat16ReadLoop_one {item size buf : Nat} {offset res : Int}
    {contents out : List UInt8} {streamed : Kernel} (entry : kernel.objs item = some (.bytes raw))
    (started : (fat16ReadInternal read (i32 (firstCluster raw)) offset
      (i32 size)).run kernel = .ok ((res, out), streamed))
    (buffer : streamed.objs buf = some (.bytes contents)) (fits : out.length ≤ contents.length) :
    (fat16ReadLoop read item size buf 1 offset 0).run kernel =
      .ok (if res < 0 then .error res else .ok (i32 (offset + size)),
        streamed.setObj buf (some (.bytes (out ++ contents.drop out.length)))) := by
  have wrote := writeBytes_run buffer (show 0 + out.length ≤ contents.length by omega)
  rw [List.take_zero, List.nil_append, Nat.zero_add] at wrote
  have loaded : (load Obj.bytes? item).run kernel = .ok (raw, kernel) := load_of_obj entry rfl
  rw [fat16ReadLoop, Exec.bind_of_ok loaded]
  refine (Exec.bind_of_ok started).trans ?_
  dsimp only
  rw [Exec.bind_of_ok wrote]
  by_cases failed : res < 0
  · rw [if_pos failed, if_pos failed, Exec.run_pure]
  · rw [if_neg failed, if_neg failed, fat16ReadLoop, Exec.run_pure]

/-- **Reading.** A request for one element writes what the recursion delivers to the buffer.
It returns 1 when the walk accepts all clusters it needs, and fails otherwise. -/
theorem fread_run (file : OpenFile kernel fd ptrs raw pos) (mounted : Mounted volume kernel)
    (delivers : Delivers read request) (entries : EntryRequests request)
    (first : firstCluster raw < 65536) {size : Nat} (positive : 1 ≤ size)
    (small : size < 2147483648) (posInt : pos < 2147483648) (bounded : pos + size ≤ 2147483648)
    (onDisk : ReadOnDisk request volume kernel.drive (firstCluster raw) pos size)
    {buf : Nat} {contents : List UInt8} (buffer : kernel.objs buf = some (.bytes contents))
    (fits : size ≤ contents.length) :
    ∃ streamed, OnlyStreams kernel streamed ∧
      ((fread read buf size 1 fd).run kernel = .ok (1, afterRead streamed ptrs buf pos size
          contents (delivered volume kernel.drive (firstCluster raw) pos size)) ∨
        ∃ out : List UInt8, out.length ≤ size ∧
          ¬ AcceptedUpTo volume kernel.drive (firstCluster raw) pos size ∧
          (fread read buf size 1 fd).run kernel = .ok (-eio, streamed.setObj buf
            (some (.bytes (out ++ contents.drop out.length))))) := by
  obtain ⟨res, out, streamed, run, only, outcome⟩ := fat16ReadInternalCalls_run delivers entries
    first (size + 1) kernel pos size mounted (Nat.lt_succ_self _) bounded onDisk
  have started : (fat16ReadInternal read (i32 (firstCluster raw)) (i32 pos)
      (i32 size)).run kernel = .ok ((res, out), streamed) := by
    rw [fat16ReadInternal, Exec.bind_of_ok (loadPrivate_run mounted),
      fat16ReadInternalFromStream, i32_natCast small, i32_natCast posInt,
      @i32_natCast (firstCluster raw) (Nat.lt_trans first (by decide)), Int.toNat_natCast]
    exact run
  have length : out.length ≤ size := by
    rcases outcome with ⟨_, rfl⟩ | ⟨_, short, _⟩
    · rw [length_window]
    · exact short
  have looped := fat16ReadLoop_one file.entry started (only.kept buffer rfl) (by omega)
  refine ⟨streamed, only, ?_⟩
  rw [fread_eq file positive le_rfl, fat16Read, Exec.bind_of_ok file.load_descriptor,
    Exec.bind_of_ok file.load_item]
  dsimp only
  rw [Exec.bind_of_ok looped]
  rcases outcome with ⟨rfl, rfl⟩ | ⟨rfl, short, rejected⟩
  · left
    have apart : ptrs.descriptor ≠ buf := Kernel.ne_of_objs file.descriptor buffer nofun
    have still := fun contents => (Kernel.setObj_objs_of_ne streamed contents apart).trans
      (only.kept file.descriptor rfl)
    have reloaded := fun contents =>
      @load_of_obj _ Obj.fatFileDescriptor? _ _ _ _ (still contents) rfl
    have advanced : u32 (i32 (pos + size)) = pos + size := by
      rw [u32_i32, u32_of_nonneg (by omega) (by omega)]
      omega
    rw [if_neg (by decide), i32_natCast posInt]
    dsimp only
    rw [Exec.bind_of_ok (reloaded _), advanced,
      Exec.bind_of_ok (store_of_live (by rw [still]; rfl)), Exec.run_pure]
    rfl
  · right
    refine ⟨out, short, rejected, ?_⟩
    rw [if_pos (by decide)]
    rfl

end Calls

end Peachos
