import Peachos.Foundation.Faults
import Peachos.Fs.Mount
import Peachos.Fs.OpenFile

/-! # Divisions and recursion of a read

The size of a cluster divides the offset of a read, and it is what each call of the recursion over
the clusters takes from the request. `readTerminates_iff` says that a read divides by zero exactly when
the header gives a cluster no sectors, and terminates otherwise, whatever the table holds.
-/

namespace Peachos

open CInt Exec Window

/-- The fault is neither a division by zero nor a loop without an end. -/
def Bounded (reason : Fault) : Prop := reason ≠ .divideByZero ∧ reason ≠ .diverges

instance (reason : Fault) : Decidable (Bounded reason) := inferInstanceAs (Decidable (_ ∧ _))

theorem bounded_badPointer (ptr : Nat) : Bounded (.badPointer ptr) := ⟨nofun, nofun⟩

theorem bounded_bufferIndex (index : Int) : Bounded (.bufferIndex index) := ⟨nofun, nofun⟩

/-- The private structure of the disk is the given one, and its sectors are of 512 bytes. -/
structure VolumeAt (volume : FatPrivate) (kernel : Kernel) : Prop where
  sectorSize : kernel.disk.sectorSize = peachosSectorSize
  fsPrivate : kernel.objs kernel.disk.fsPrivate = some (.fatPrivate volume)

section Programs

variable {volume : FatPrivate} {kernel : Kernel} {read : StreamRead}

/-- Another object can be replaced. -/
theorem VolumeAt.setObj (at_ : VolumeAt volume kernel) {ptr : Nat} {before : Obj}
    (present : kernel.objs ptr = some before) (other : before.fatPrivate? = none)
    (after : Option Obj) : VolumeAt volume (kernel.setObj ptr after) where
  sectorSize := at_.sectorSize
  fsPrivate := by
    have apart : kernel.disk.fsPrivate ≠ ptr := by
      refine Kernel.ne_of_objs at_.fsPrivate present ?_
      rintro rfl
      cases other
    exact (Kernel.setObj_objs_of_ne _ _ apart).trans at_.fsPrivate

/-- A program that keeps the volume and does not end in a division by zero or an endless loop. -/
abbrev Ends {α : Type} (volume : FatPrivate) (program : K α) (post : α → Prop) : Prop :=
  Confined Bounded (VolumeAt volume) program post

theorem load_ends {α : Type} {view : Obj → Option α} (ptr : Nat) :
    Ends volume (load view ptr) fun _ => True :=
  .demand (bounded_badPointer ptr) fun _ _ _ _ => trivial

theorem VolumeAt.loadPrivate_run (at_ : VolumeAt volume kernel) :
    loadPrivate.run kernel = .ok (volume, kernel) := by
  rw [loadPrivate, bind_of_ok (run_read _ _)]
  exact load_of_obj at_.fsPrivate rfl

theorem loadPrivate_ends : Ends volume loadPrivate fun value => value = volume := by
  constructor
  · rintro kernel value final at_ run
    rw [at_.loadPrivate_run] at run
    cases run
    exact ⟨at_, rfl⟩
  · rintro kernel reason at_ stopped
    rw [at_.loadPrivate_run] at stopped
    cases stopped

theorem readDisk_ends : Ends volume (Exec.read Kernel.disk : K Disk)
    fun disk => disk.sectorSize = peachosSectorSize :=
  .read fun _ at_ => at_.sectorSize

/-- A change of an object of another type. -/
theorem loadStore_ends {α β : Type} {view : Obj → Option α} {ptr : Nat} {change : α → Obj}
    {next : α → K β} {post : β → Prop}
    (other : ∀ contents value, view contents = some value → contents.fatPrivate? = none)
    (rest : ∀ value, Ends volume (next value) post) :
    Ends volume (do
      let value ← load view ptr
      store ptr (change value)
      next value) post := by
  constructor
  · refine loadStore_ensures ?_ fun value => (rest value).ensures
    exact fun kernel contents value at_ present typed =>
      at_.setObj present (other contents value typed) _
  · intro kernel reason at_ stopped
    cases present : (kernel.objs ptr).bind view with
    | none =>
        have missing : (load view ptr).run kernel = .error (.badPointer ptr) := by
          simp only [load, Exec.demand, run_of, present]
        rw [bind_of_error missing] at stopped
        cases stopped
        exact bounded_badPointer ptr
    | some value =>
        obtain ⟨contents, here, typed⟩ := Option.bind_eq_some_iff.mp present
        rw [bind_of_ok (load_of_obj here typed),
          bind_of_ok (store_of_live (by rw [here]; rfl))] at stopped
        exact (rest value).faults _ reason
          (at_.setObj here (other contents value typed) _) stopped

theorem diskstreamerSeek_ends (stream : Nat) (pos : Int) :
    Ends volume (diskstreamerSeek stream pos) fun _ => True := by
  refine loadStore_ends ?_ fun _ => .pure trivial
  intro contents value typed
  cases contents <;> cases typed
  rfl

/-- A completed or refused write went to a buffer. -/
theorem writeBytes_ends (ptr offset : Nat) (out : List UInt8) :
    Ends volume (writeBytes ptr offset out) fun _ => True := by
  constructor
  · intro kernel done final at_ run
    obtain ⟨contents, present, _, rfl⟩ := writeBytes_eq_ok run
    exact ⟨at_.setObj present rfl _, trivial⟩
  · intro kernel reason at_ stopped
    cases present : (kernel.objs ptr).bind Obj.bytes? with
    | none =>
        have missing : (load Obj.bytes? ptr).run kernel = .error (.badPointer ptr) := by
          simp only [load, Exec.demand, run_of, present]
        rw [writeBytes, bind_of_error missing] at stopped
        cases stopped
        exact bounded_badPointer ptr
    | some contents =>
        obtain ⟨found, here, typed⟩ := Option.bind_eq_some_iff.mp present
        rw [writeBytes, bind_of_ok (load_of_obj here typed)] at stopped
        by_cases fits : offset + out.length ≤ contents.length
        · rw [if_pos fits, store_of_live (by rw [here]; rfl)] at stopped
          cases stopped
        · rw [if_neg fits, run_fault] at stopped
          cases stopped
          exact bounded_bufferIndex _

theorem copyBuffer_ends (buf : List UInt8) (count : Nat) (index : Int) :
    Ends volume (copyBuffer buf count index) fun _ => True := by
  induction count generalizing index with
  | zero => exact .pure trivial
  | succ count ih =>
      refine .bind (.demand (bounded_bufferIndex index) fun _ _ _ _ => trivial) fun _ _ => ?_
      exact .bind (ih (index + 1)) fun _ _ => .pure trivial

theorem diskReadBlock_ends (idisk : DiskPtr) (lba : Nat) (total : Int) :
    Ends volume (diskReadBlock idisk lba total) fun _ => True := by
  unfold diskReadBlock diskReadSector
  refine .ite (fun _ => .pure trivial) fun _ => ?_
  have drive : Ends volume (Exec.read Kernel.drive : K (Nat → UInt8)) fun _ => True :=
    .read fun _ _ => trivial
  exact .bind drive fun _ _ => .pure trivial

/-- The recursion over the sectors takes a call for each sector's worth. -/
theorem diskstreamerReadCalls_ends (stream : Nat) (calls : Nat) :
    ∀ total : Int, total.toNat / peachosSectorSize < calls →
      Ends volume (diskstreamerReadCalls stream calls total) fun _ => True := by
  induction calls with
  | zero => exact fun _ enough => absurd enough (Nat.not_lt_zero _)
  | succ calls ih =>
      intro total enough
      unfold diskstreamerReadCalls
      refine .bind (load_ends _) fun value _ => ?_
      refine .bind (diskReadBlock_ends _ _ _) fun sector _ => ?_
      refine .ite (fun _ => .pure trivial) fun _ => ?_
      refine .bind (copyBuffer_ends _ _ _) fun copied _ => ?_
      refine loadStore_ends ?_ fun value => ?_
      · intro contents value typed
        cases contents <;> cases typed
        rfl
      · refine .ite (fun more => ?_) fun _ => .pure trivial
        refine .bind (ih _ ?_) fun _ _ => .pure trivial
        unfold peachosSectorSize at *
        omega

theorem diskstreamerRead_ends (stream : Nat) (total : Int) :
    Ends volume (diskstreamerRead stream total) fun _ => True :=
  diskstreamerReadCalls_ends stream _ total (Nat.lt_succ_self _)

/-- The reader ends on every request. -/
def ReadEnds (volume : FatPrivate) (read : StreamRead) : Prop :=
  ∀ stream total, Ends volume (read stream total) fun _ => True

theorem fat16GetFatEntry_ends (reads : ReadEnds volume read) (cluster : Int) :
    Ends volume (fat16GetFatEntry read cluster) fun _ => True := by
  refine .bind loadPrivate_ends fun value _ => .bind readDisk_ends fun disk _ => ?_
  refine .ite (fun _ => .pure trivial) fun _ => ?_
  refine .bind (diskstreamerSeek_ends _ _) fun res _ => ?_
  refine .ite (fun _ => .pure trivial) fun _ => ?_
  exact .bind (reads _ _) fun _ _ => .ite (fun _ => .pure trivial) fun _ => .pure trivial

/-- The walk takes as many steps as it was asked for, also around a cycle. -/
theorem fat16GetClusterLoop_ends (reads : ReadEnds volume read) (clustersAhead : Nat) :
    ∀ cluster, Ends volume (fat16GetClusterLoop read clustersAhead cluster) fun _ => True := by
  induction clustersAhead with
  | zero => exact fun _ => .pure trivial
  | succ clustersAhead ih =>
      intro cluster
      refine .bind (fat16GetFatEntry_ends reads cluster) fun entry _ => ?_
      exact .ite (fun _ => .pure trivial) fun _ => ih entry

variable (notEmpty : 1 ≤ volume.header.sectorsPerCluster)
  (byte : volume.header.sectorsPerCluster < 256)

include notEmpty byte

/-- The size of a cluster is at least one sector. -/
theorem sizeOfClusterBytes_positive {disk : Disk}
    (sectorSize : disk.sectorSize = peachosSectorSize) :
    1 ≤ sizeOfClusterBytes volume disk := by
  unfold sizeOfClusterBytes
  rw [sectorSize]
  unfold peachosSectorSize i32
  omega

theorem fat16GetClusterForOffset_ends (reads : ReadEnds volume read)
    (startingCluster offset : Int) :
    Ends volume (fat16GetClusterForOffset read startingCluster offset) fun _ => True := by
  refine .bind loadPrivate_ends fun value same => ?_
  rw [same]
  refine .bind readDisk_ends fun disk sectorSize => ?_
  have positive := sizeOfClusterBytes_positive notEmpty byte sectorSize
  have divided : Ends volume (divide offset (sizeOfClusterBytes volume disk)) fun _ => True := by
    rw [divide, if_neg (by omega)]
    exact .pure trivial
  exact .bind divided fun _ _ => fat16GetClusterLoop_ends reads _ _

/-- **The recursion over the clusters.** Each call takes a cluster's worth from the request. -/
theorem fat16ReadInternalCalls_ends (reads : ReadEnds volume read) (stream : Nat)
    (cluster : Int) (calls : Nat) : ∀ offset total : Int, total.toNat < calls →
      Ends volume (fat16ReadInternalCalls read stream cluster calls offset total)
        fun _ => True := by
  induction calls with
  | zero => exact fun _ _ enough => absurd enough (Nat.not_lt_zero _)
  | succ calls ih =>
      intro offset total enough
      refine .bind loadPrivate_ends fun value same => ?_
      rw [same]
      refine .bind readDisk_ends fun disk sectorSize => ?_
      have positive := sizeOfClusterBytes_positive notEmpty byte sectorSize
      have rest : Ends volume (remainder offset (sizeOfClusterBytes volume disk))
          fun _ => True := by
        rw [remainder, if_neg (by omega)]
        exact .pure trivial
      refine .bind (fat16GetClusterForOffset_ends notEmpty byte reads _ _) fun clusterToUse _ => ?_
      refine .ite (fun _ => .pure trivial) fun _ => ?_
      refine .bind rest fun _ _ => ?_
      refine .bind (diskstreamerSeek_ends _ _) fun res _ => ?_
      refine .ite (fun _ => .pure trivial) fun _ => ?_
      refine .bind (reads _ _) fun result _ => ?_
      refine .ite (fun _ => .pure trivial) fun _ => ?_
      refine .ite (fun more => ?_) fun _ => .pure trivial
      refine .bind (ih _ _ ?_) fun _ _ => .pure trivial
      split at more
      · split <;> omega
      · omega

theorem fat16ReadInternal_ends (reads : ReadEnds volume read) (cluster offset total : Int) :
    Ends volume (fat16ReadInternal read cluster offset total) fun _ => True :=
  .bind loadPrivate_ends fun _ _ =>
    fat16ReadInternalCalls_ends notEmpty byte reads _ _ _ _ _ (Nat.lt_succ_self _)

theorem fat16ReadLoop_ends (reads : ReadEnds volume read) (item size out count : Nat) :
    ∀ (offset : Int) (outOffset : Nat),
      Ends volume (fat16ReadLoop read item size out count offset outOffset) fun _ => True := by
  induction count with
  | zero => exact fun _ _ => .pure trivial
  | succ count ih =>
      intro offset outOffset
      refine .bind (load_ends _) fun entry _ => ?_
      refine .bind (fat16ReadInternal_ends notEmpty byte reads _ _ _) fun result _ => ?_
      refine .bind (writeBytes_ends _ _ _) fun _ _ => ?_
      exact .ite (fun _ => .pure trivial) fun _ => ih _ _

/-- **A read of a volume whose clusters are not empty.** -/
theorem fat16Read_ends (reads : ReadEnds volume read) (descriptor size nmemb out : Nat) :
    Ends volume (fat16Read read descriptor size nmemb out) fun _ => True := by
  refine .bind (load_ends _) fun fatDesc _ => .bind (load_ends _) fun descItem _ => ?_
  refine .bind (fat16ReadLoop_ends notEmpty byte reads _ _ _ _ _ _) fun outcome _ => ?_
  cases outcome with
  | error res => exact .pure trivial
  | ok offset =>
      refine loadStore_ends ?_ fun _ => .pure trivial
      intro contents value typed
      cases contents <;> cases typed
      rfl

end Programs

section Empty

variable {volume : FatPrivate} {kernel : Kernel} {read : StreamRead}

/-- Where a cluster has no sectors, the first element of a read divides by zero. -/
theorem fat16ReadInternal_divides (at_ : VolumeAt volume kernel)
    (empty : volume.header.sectorsPerCluster = 0) (cluster offset total : Int) :
    (fat16ReadInternal read cluster offset total).run kernel = .error .divideByZero := by
  have loaded := at_.loadPrivate_run
  have zero : sizeOfClusterBytes volume kernel.disk = 0 := by
    unfold sizeOfClusterBytes
    rw [empty, Int.natCast_zero, Int.zero_mul]
    rfl
  have walk : (fat16GetClusterForOffset read cluster offset).run kernel =
      .error .divideByZero := by
    rw [fat16GetClusterForOffset, bind_of_ok loaded, bind_of_ok (run_read _ _)]
    refine bind_of_error ?_
    rw [divide, if_pos zero, run_fault]
  rw [fat16ReadInternal, bind_of_ok loaded, fat16ReadInternalFromStream, fat16ReadInternalCalls,
    bind_of_ok loaded, bind_of_ok (run_read _ _)]
  exact bind_of_error walk

end Empty

/-- The read divides by no zero and terminates. -/
def ReadTerminates (read : StreamRead) (kernel : Kernel) (descriptor size nmemb out : Nat) :
    Prop :=
  (fat16Read read descriptor size nmemb out).run kernel ≠ .error .divideByZero ∧
    (fat16Read read descriptor size nmemb out).run kernel ≠ .error .diverges

/-- **Termination of a read.** For every boot sector, table, position, size, count and buffer, a
read of an open file divides by no zero and terminates, if and only if the header gives a cluster
at least one sector or no element is asked for. -/
theorem readTerminates_iff {volume : FatPrivate} {kernel : Kernel} {boot : List UInt8}
    (at_ : VolumeAt volume kernel) (header : volume.header = FatHeader.decode boot) {fd : Nat}
    {ptrs : FilePointers} {raw : List UInt8} {pos : Nat} (file : OpenFile kernel fd ptrs raw pos)
    (size nmemb out : Nat) :
    ReadTerminates diskstreamerRead kernel ptrs.descriptor size nmemb out ↔
      1 ≤ (FatHeader.decode boot).sectorsPerCluster ∨ nmemb = 0 := by
  constructor
  · rintro ⟨divides, _⟩
    by_contra neither
    rw [not_or] at neither
    obtain ⟨count, rfl⟩ := Nat.exists_eq_succ_of_ne_zero neither.2
    apply divides
    rw [fat16Read, bind_of_ok file.load_descriptor, bind_of_ok file.load_item]
    refine bind_of_error ((bind_of_ok file.load_entry).trans (bind_of_error
      (fat16ReadInternal_divides at_ ?_ _ _ _)))
    rw [header]
    omega
  · rintro (notEmpty | rfl)
    · rw [← header] at notEmpty
      have byte : volume.header.sectorsPerCluster < 256 := by
        rw [header]
        change littleEndian ((boot.drop 13).take 1) < 256
        rcases boot.drop 13 with _ | ⟨first, rest⟩
        · decide
        · have small := first.toNat_lt
          change first.toNat + 256 * 0 < 256
          omega
      have ends := (fat16Read_ends notEmpty byte diskstreamerRead_ends ptrs.descriptor size nmemb
        out).faults kernel
      exact ⟨fun stopped => (ends _ at_ stopped).1 rfl, fun stopped => (ends _ at_ stopped).2 rfl⟩
    · have done : (fat16Read diskstreamerRead ptrs.descriptor size 0 out).run kernel =
          .ok (i32 (0 : Nat), kernel.setObj ptrs.descriptor (some (.fatFileDescriptor
            { item := ptrs.item, pos := u32 (i32 pos) }))) := by
        rw [fat16Read, bind_of_ok file.load_descriptor, bind_of_ok file.load_item]
        refine (bind_of_ok (run_pure _ _)).trans ?_
        dsimp only
        rw [bind_of_ok file.load_descriptor, bind_of_ok (store_of_live (by rw [file.descriptor]; rfl)),
          run_pure]
      refine ⟨fun stopped => ?_, fun stopped => ?_⟩ <;>
      · rw [done] at stopped
        cases stopped

/-- The boot sector of a volume whose clusters have the given number of sectors. -/
def headerOf (sectorsPerCluster : UInt8) : Nat → UInt8 :=
  imageOf [(13, sectorsPerCluster), (14, 1), (16, 1), (17, 16), (22, 1), (38, 0x29)]

/-- That volume, with a file of one byte at cluster 2 open as number 1. -/
def openedKernel (sectorsPerCluster : UInt8) : Kernel where
  heap := { table := { entries := [] }, saddr := 0 }
  disk := { fsPrivate := 4096, filesystem := some .fat16 }
  drive := headerOf sectorsPerCluster
  fileDescriptors := 16384 :: List.replicate 511 0
  objs ptr :=
    if ptr = 4096 then some (.fatPrivate {
      header := FatHeader.decode (window (headerOf sectorsPerCluster) 0 sizeofFatH)
      rootDirectory := { sectorPos := 2, endingSectorPos := 3 }
      clusterReadStream := 8192
      fatReadStream := 12288 })
    else if ptr = 8192 ∨ ptr = 12288 then some (streamAt 0)
    else if ptr = 16384 then some (.fileDescriptor {
      index := 1
      filesystem := some .fat16
      privateData := 20480
      disk := .disk })
    else if ptr = 20480 then some (.fatFileDescriptor { item := 24576 })
    else if ptr = 24576 then some (.fatItem { pointer := 28672, type := fatItemTypeFile })
    else if ptr = 28672 then
      some (.bytes (List.replicate 26 0x20 ++ [2, 0, 1, 0, 0, 0]))
    else if ptr = 32768 then some (.bytes [0])
    else none

theorem openedKernel_open (sectorsPerCluster : UInt8) :
    OpenFile (openedKernel sectorsPerCluster) 1 ⟨16384, 20480, 24576, 28672⟩
      (List.replicate 26 0x20 ++ [2, 0, 1, 0, 0, 0]) 0 where
  positive := by decide
  inTable := by decide
  slot := rfl
  descNotNull := by decide
  desc := rfl
  descriptor := rfl
  item := rfl
  entry := rfl

/-- A read of the file on a volume with one sector a cluster. -/
theorem readTerminates_opened :
    ReadTerminates diskstreamerRead (openedKernel 1) 20480 1 1 32768 :=
  (readTerminates_iff ⟨rfl, rfl⟩ rfl (openedKernel_open 1) 1 1 32768).mpr (.inl (by decide))

/-- The boot sector of a volume whose clusters have no sectors is accepted, and a read of a file
on it divides by zero. -/
theorem readTerminates_emptyClusters :
    (∃ next, (fat16Resolve diskstreamerRead).run { bootKernel with drive := headerOf 0 } =
      .ok (0, next)) ∧
      (fat16Read diskstreamerRead 20480 1 1 32768).run (openedKernel 0) =
        .error .divideByZero ∧
      ¬ ReadTerminates diskstreamerRead (openedKernel 0) 20480 1 1 32768 := by
  have inv : KernelInvariant kernelHeapRegion [] { bootKernel with drive := headerOf 0 } :=
    (freshKernel_invariant kernelHeapRegion).of_same rfl rfl
  obtain ⟨_, next, _, run, _⟩ := @fat16Resolve_run kernelHeapRegion [] _ 0 25600 inv
    (bootWithDisk_room []) rfl rfl (show _ = _ by decide) [] ⟨by decide, by decide, by decide⟩
    (by decide)
  have divides : (fat16Read diskstreamerRead 20480 1 1 32768).run (openedKernel 0) =
      .error .divideByZero := by
    have file := openedKernel_open 0
    have descriptor : (load Obj.fatFileDescriptor? 20480).run (openedKernel 0) = .ok (_, _) :=
      load_of_obj file.descriptor rfl
    have item : (load Obj.fatItem? 24576).run (openedKernel 0) = .ok (_, _) :=
      load_of_obj file.item rfl
    have entry : (load Obj.bytes? 28672).run (openedKernel 0) = .ok (_, _) :=
      load_of_obj file.entry rfl
    rw [fat16Read, bind_of_ok descriptor, bind_of_ok item]
    exact bind_of_error ((bind_of_ok entry).trans (bind_of_error
      (fat16ReadInternal_divides ⟨rfl, rfl⟩ (by decide) _ _ _)))
  exact ⟨⟨next, run⟩, divides, fun terminates => terminates.1 divides⟩

end Peachos
