import Peachos.Foundation.Agreement
import Peachos.Fs.Mount

/-! # The reads of the metadata

`diskstreamer_read` indexes its sector buffer out of range when a read that does not start on a
sector boundary goes past the end of its sector, and nothing checks for that. The reader here
watches every call, recursive ones included: `metadataReads_sectorSafe` says that the functions that
read the header, the directories and the table never make such a call.
-/

namespace Peachos

open CInt Exec Window

section Calls

/-- The body of `diskstreamer_read`, given its recursive call. -/
def diskstreamerReadBody (recursive : Int → K (Int × List UInt8)) (stream : Nat) (total : Int) :
    K (Int × List UInt8) := do
  let value ← load Obj.diskStream? stream
  let sector := value.pos.tdiv peachosSectorSize
  let offset := value.pos.tmod peachosSectorSize
  let (res, buf) ← diskReadBlock value.disk (u32 sector) 1
  if res < 0 then pure (res, [])
  else do
    let totalToRead := if total > peachosSectorSize then (peachosSectorSize : Int) else total
    let copied ← copyBuffer buf totalToRead.toNat offset
    let value ← load Obj.diskStream? stream
    store stream (.diskStream { value with pos := i32 (value.pos + totalToRead) })
    if total > peachosSectorSize then do
      let (res, rest) ← recursive (total - peachosSectorSize)
      pure (res, copied ++ rest)
    else pure (res, copied)

theorem diskstreamerReadCalls_succ (stream calls : Nat) :
    diskstreamerReadCalls stream (calls + 1) =
      diskstreamerReadBody (diskstreamerReadCalls stream calls) stream := rfl

variable (allowed : Int → Int → Prop) [∀ pos total, Decidable (allowed pos total)]

/-- `diskstreamer_read` that stops with `reason` at a call, of the position of its stream and the
number of bytes, that is not allowed. -/
def watchedReadCalls (reason : Fault) (stream : Nat) : (calls : Nat) → (total : Int) →
    K (Int × List UInt8)
  | 0, _ => Exec.fault .diverges
  | calls + 1, total => do
      let value ← load Obj.diskStream? stream
      if allowed value.pos total then
        diskstreamerReadBody (watchedReadCalls reason stream calls) stream total
      else Exec.fault reason

def watchedRead (reason : Fault) : StreamRead := fun stream total =>
  watchedReadCalls allowed reason stream (total.toNat / peachosSectorSize + 1) total

/-- All calls of `diskstreamer_read` that the program makes from the state are allowed: the watched
run is the run of the program, whatever the fault is that a call would stop with. -/
def CallsOnly {α : Type} (program : StreamRead → K α) (kernel : Kernel) : Prop :=
  ∀ reason, (program (watchedRead allowed reason)).run kernel =
    (program diskstreamerRead).run kernel

section First

variable {allowed} {stream : Nat} {value : DiskStream} {total : Int} {kernel : Kernel}

/-- A call that is not allowed is where the watched run stops. -/
theorem watchedRead_stops (present : kernel.objs stream = some (.diskStream value))
    (refused : ¬ allowed value.pos total) (reason : Fault) :
    (watchedRead allowed reason stream total).run kernel = .error reason := by
  have loaded : (load Obj.diskStream? stream).run kernel = .ok (value, kernel) :=
    load_of_obj present rfl
  rw [watchedRead, watchedReadCalls, bind_of_ok loaded, if_neg refused, run_fault]

/-- So the first call of a read that makes allowed calls only is one. -/
theorem CallsOnly.first (only : CallsOnly allowed (· stream total) kernel)
    (present : kernel.objs stream = some (.diskStream value)) : allowed value.pos total := by
  by_contra refused
  have stops := watchedRead_stops present refused
  have both := (only .diverges).trans (only .divideByZero).symm
  simp [stops] at both

end First

/-- All calls that read metadata from the state are allowed. -/
structure MetadataReads (kernel : Kernel) : Prop where
  resolve : CallsOnly allowed fat16Resolve kernel
  rootDirectory : ∀ fatPrivate, CallsOnly allowed (fat16GetRootDirectory · fatPrivate) kernel
  totalItems : ∀ sector, CallsOnly allowed (fat16GetTotalItemsForDirectory · sector) kernel
  fatEntry : ∀ cluster, CallsOnly allowed (fat16GetFatEntry · cluster) kernel
  loadDirectory : ∀ item, CallsOnly allowed (fat16LoadFatDirectory · item) kernel

end Calls

section Buffer

/-- The copy loop of a call indexes the sector buffer inside it only. -/
def BufferInside (pos total : Int) : Prop :=
  ∀ i < (min total peachosSectorSize).toNat, 0 ≤ pos.tmod peachosSectorSize + i ∧
    pos.tmod peachosSectorSize + i < peachosSectorSize

instance (pos total : Int) : Decidable (BufferInside pos total) :=
  inferInstanceAs (Decidable (∀ _ < _, _))

/-- At a byte position in range the call starts on a sector boundary or fits in the rest of its
sector, and stays in the buffer. -/
def SectorSafe (pos total : Int) : Prop :=
  0 ≤ pos ∧ pos < 2147483648 →
    (pos.tmod peachosSectorSize = 0 ∨ pos.tmod peachosSectorSize + total ≤ peachosSectorSize) ∧
      BufferInside pos total

instance (pos total : Int) : Decidable (SectorSafe pos total) :=
  inferInstanceAs (Decidable (_ → _))

/-- The call starts on a sector boundary or fits in the rest of its sector, at any position. -/
def SectorCall (pos total : Int) : Prop := 512 ∣ pos ∨ pos % 512 + total ≤ 512

theorem SectorCall.safe {pos total : Int} (call : SectorCall pos total) :
    SectorSafe pos total := by
  rintro ⟨above, -⟩
  unfold SectorCall at call
  unfold BufferInside
  rw [Int.tmod_eq_emod_of_nonneg above]
  unfold peachosSectorSize
  refine ⟨by omega, fun i before => ?_⟩
  omega

end Buffer

/-- The sectors of the disk are of 512 bytes. -/
def SectorDisk (kernel : Kernel) : Prop := kernel.disk.sectorSize = peachosSectorSize

/-- So they are, and the stream is at a position of the given kind. -/
structure Positioned (stream : Nat) (kind : Int → Prop) (kernel : Kernel) : Prop where
  sectorDisk : SectorDisk kernel
  position : ∃ value, kernel.objs stream = some (.diskStream value) ∧ kind value.pos

section Reader

variable {stream : Nat} {kind : Int → Prop} {kernel : Kernel}

theorem Positioned.mono (at_ : Positioned stream kind kernel) {weaker : Int → Prop}
    (implies : ∀ pos, kind pos → weaker pos) : Positioned stream weaker kernel := by
  obtain ⟨value, present, holds⟩ := at_.position
  exact ⟨at_.sectorDisk, value, present, implies _ holds⟩

theorem loadStream_positioned : Ensures (Positioned stream kind) (load Obj.diskStream? stream)
    fun value => kind value.pos := by
  refine .demand fun kernel found at_ viewed => ?_
  obtain ⟨value, present, holds⟩ := at_.position
  rw [present] at viewed
  cases viewed
  exact holds

/-- Writing a stream moves it. -/
theorem storeStream_positioned (value : DiskStream) :
    Agrees SectorDisk (store stream (.diskStream value)) (store stream (.diskStream value))
      fun _ => Positioned stream (· = value.pos) := by
  refine .same fun kernel done next held run => ?_
  obtain ⟨present, rfl⟩ := store_eq_ok.mp run
  exact ⟨held, value, Kernel.setObj_objs_self .., rfl⟩

/-- A position stays a multiple when it wraps around. -/
theorem dvd_i32 {divisor pos : Int} (divides : divisor ∣ 512) (multiple : divisor ∣ pos) :
    divisor ∣ i32 pos := by
  have word : divisor ∣ 4294967296 := divides.trans (by decide)
  have wrapped : i32 pos = pos - 4294967296 * ((pos + 2147483648) / 4294967296) := by
    unfold i32
    omega
  rw [wrapped]
  exact Int.dvd_sub multiple (word.mul_right _)

/-- One call agrees with another when their recursive calls do. -/
theorem diskstreamerReadBody_agrees {divisor : Int} (divides : divisor ∣ 512)
    {first second : Int → K (Int × List UInt8)} {total : Int} (whole : divisor ∣ total)
    (recursive : total > peachosSectorSize → Agrees
      (Positioned stream fun pos => 512 ∣ pos ∧ divisor ∣ pos)
      (first (total - peachosSectorSize)) (second (total - peachosSectorSize))
      fun _ => Positioned stream (divisor ∣ ·)) :
    Agrees (Positioned stream fun pos => SectorCall pos total ∧ divisor ∣ pos)
      (diskstreamerReadBody first stream total) (diskstreamerReadBody second stream total)
      fun _ => Positioned stream (divisor ∣ ·) := by
  have stay : ∀ kernel, (Positioned stream fun pos => SectorCall pos total ∧ divisor ∣ pos) kernel →
      Positioned stream (divisor ∣ ·) kernel := fun _ at_ => at_.mono fun _ => And.right
  refine .after loadStream_positioned fun value _ => ?_
  refine .after (diskReadBlock_ensures _ _ _) fun sector _ => ?_
  refine .ite (fun _ => .pure stay) fun _ => ?_
  refine .after (copyBuffer_ensures _ _ _) fun copied _ => ?_
  refine .after loadStream_positioned fun value shape => ?_
  refine .bind ((storeStream_positioned _).strengthen fun _ at_ => at_.sectorDisk) fun _ => ?_
  by_cases more : total > peachosSectorSize
  · -- the rest starts on the next sector boundary
    have boundary : 512 ∣ value.pos := by
      unfold SectorCall peachosSectorSize at *
      omega
    simp only [if_pos more]
    refine .bind ((recursive more).strengthen fun _ at_ => at_.mono ?_) fun _ => .pure fun _ => id
    rintro _ rfl
    refine ⟨dvd_i32 dvd_rfl (Int.dvd_add boundary dvd_rfl), ?_⟩
    exact dvd_i32 divides (Int.dvd_add shape.2 divides)
  · simp only [if_neg more]
    refine .pure fun _ at_ => at_.mono ?_
    rintro _ rfl
    exact dvd_i32 divides (Int.dvd_add shape.2 whole)

variable {allowed : Int → Int → Prop} [∀ pos total, Decidable (allowed pos total)]

/-- **Nothing to stop at.** A read that starts as a call that is allowed makes no other calls. -/
theorem watchedReadCalls_agrees (safe : ∀ pos total, SectorCall pos total → allowed pos total)
    (reason : Fault) {divisor : Int} (divides : divisor ∣ 512) (calls : Nat) :
    ∀ total : Int, divisor ∣ total → Agrees
      (Positioned stream fun pos => SectorCall pos total ∧ divisor ∣ pos)
      (watchedReadCalls allowed reason stream calls total)
      (diskstreamerReadCalls stream calls total) fun _ => Positioned stream (divisor ∣ ·) := by
  induction calls with
  | zero => exact fun _ _ => .fault _
  | succ calls ih =>
      intro total whole kernel at_
      obtain ⟨value, present, call, _⟩ := at_.position
      have loaded : (load Obj.diskStream? stream).run kernel = .ok (value, kernel) :=
        load_of_obj present rfl
      rw [watchedReadCalls, bind_of_ok loaded, if_pos (safe _ _ call), diskstreamerReadCalls_succ]
      refine diskstreamerReadBody_agrees divides whole (fun more => ?_) kernel at_
      have rest := ih (total - peachosSectorSize) (Int.dvd_sub whole divides)
      exact rest.strengthen fun _ at_ => at_.mono fun _ shape => ⟨.inl shape.1, shape.2⟩

/-- The reader does what `diskstreamer_read` does for a read that starts on a sector boundary or
fits in the rest of its sector. -/
def SectorReader (watched : StreamRead) : Prop :=
  ∀ (stream : Nat) (divisor total : Int), divisor ∣ 512 → divisor ∣ total → Agrees
    (Positioned stream fun pos => SectorCall pos total ∧ divisor ∣ pos)
    (watched stream total) (diskstreamerRead stream total) fun _ => Positioned stream (divisor ∣ ·)

theorem watchedRead_sectorReader (safe : ∀ pos total, SectorCall pos total → allowed pos total)
    (reason : Fault) : SectorReader (watchedRead allowed reason) :=
  fun _ _ _ divides whole => watchedReadCalls_agrees safe reason divides _ _ whole

/-- A read of a stream at such a position. -/
theorem SectorReader.read {watched : StreamRead} (reader : SectorReader watched) {total : Int}
    (call : ∀ pos, kind pos → SectorCall pos total) :
    Agrees (Positioned stream kind) (watched stream total) (diskstreamerRead stream total)
      fun _ => SectorDisk := by
  have agrees := reader stream 1 total (one_dvd _) (one_dvd _)
  refine agrees.mono (fun _ at_ => at_.mono fun pos holds => ⟨call pos holds, one_dvd _⟩) ?_
  exact fun _ _ at_ => at_.sectorDisk

end Reader

section Steps

theorem readDisk_sectorDisk : Ensures SectorDisk (Exec.read Kernel.disk : K Disk)
    fun disk => disk.sectorSize = peachosSectorSize :=
  .read fun _ held => held

theorem load_sectorDisk {α : Type} (view : Obj → Option α) (ptr : Nat) :
    Ensures SectorDisk (load view ptr) fun _ => True :=
  .demand fun _ _ _ _ => trivial

theorem loadPrivate_sectorDisk : Ensures SectorDisk loadPrivate fun _ => True :=
  .bind readDisk_sectorDisk fun _ _ => load_sectorDisk _ _

theorem store_sectorDisk (ptr : Nat) (contents : Obj) :
    Ensures SectorDisk (store ptr contents) fun _ => True := by
  intro kernel done next held run
  obtain ⟨_, rfl⟩ := store_eq_ok.mp run
  exact ⟨held, trivial⟩

theorem writeBytes_sectorDisk (ptr offset : Nat) (out : List UInt8) :
    Ensures SectorDisk (writeBytes ptr offset out) fun _ => True :=
  .bind (load_sectorDisk _ _) fun _ _ => .ite (fun _ => store_sectorDisk _ _) fun _ => .fault _

theorem onHeap_sectorDisk {α : Type} (program : HeapM α) :
    Ensures SectorDisk (onHeap program) fun _ => True := by
  intro kernel value next held run
  obtain ⟨heap, _, rfl⟩ := zoom_eq_ok.mp run
  exact ⟨held, trivial⟩

theorem kzalloc_sectorDisk (size : Nat) (zeroed : Obj) :
    Ensures SectorDisk (kzalloc size zeroed) fun _ => True := by
  refine .bind (onHeap_sectorDisk _) fun ptr _ => ?_
  refine .ite (fun _ => .pure trivial) fun _ => ?_
  exact .bind (.update fun _ held => held) fun _ _ => .pure trivial

theorem kfree_sectorDisk (ptr : Nat) : Ensures SectorDisk (kfree ptr) fun _ => True := by
  have live : Ensures SectorDisk (Exec.read fun kernel => (kernel.objs ptr).isSome : K Bool)
      fun _ => True := .read fun _ _ => trivial
  refine .bind live fun _ _ => .ite (fun _ => ?_) fun _ => .fault _
  exact .bind (onHeap_sectorDisk _) fun _ _ => .update fun _ held => held

theorem divide_sectorDisk (dividend divisor : Int) :
    Ensures SectorDisk (divide dividend divisor) fun _ => True :=
  .ite (fun _ => .fault _) fun _ => .pure trivial

/-- The remainder of multiples is one. -/
theorem remainder_sectorDisk {dividend divisor : Int} (left : 512 ∣ dividend)
    (right : 512 ∣ divisor) :
    Ensures SectorDisk (remainder dividend divisor) fun rest => 512 ∣ rest := by
  refine .ite (fun _ => .fault _) fun _ => .pure ?_
  rw [Int.tmod_def]
  exact Int.dvd_sub left (right.mul_right _)

theorem diskstreamerSeek_positioned (stream : Nat) (pos : Int) :
    Agrees SectorDisk (diskstreamerSeek stream pos) (diskstreamerSeek stream pos)
      fun _ => Positioned stream (· = pos) :=
  .after (load_sectorDisk _ _) fun _ _ =>
    .bind (storeStream_positioned _) fun _ => .pure fun _ => id

/-- A new stream is at the start of the disk. -/
theorem diskstreamerNew_positioned (diskId : Int) :
    Agrees SectorDisk (diskstreamerNew diskId) (diskstreamerNew diskId) fun stream kernel =>
      SectorDisk kernel ∧ (stream ≠ 0 → Positioned stream (· = 0) kernel) := by
  refine .ite (fun _ => .pure fun _ held => ⟨held, absurd rfl⟩) fun _ => ?_
  refine .after (kzalloc_sectorDisk _ _) fun stream _ => ?_
  refine .after (load_sectorDisk _ _) fun _ _ => ?_
  refine .bind (storeStream_positioned _) fun _ => ?_
  refine .after loadStream_positioned fun value start => ?_
  refine .bind ((storeStream_positioned _).strengthen fun _ at_ => at_.sectorDisk) fun _ => ?_
  refine .pure fun kernel at_ => ⟨at_.sectorDisk, fun _ => ?_⟩
  exact at_.mono fun pos same => same.trans start

theorem diskstreamerNew_sectorDisk (diskId : Int) :
    Ensures SectorDisk (diskstreamerNew diskId) fun _ => True :=
  fun kernel _ _ held run =>
    ⟨((diskstreamerNew_positioned diskId kernel held).2 _ _ run).1, trivial⟩

theorem fat16InitPrivate_sectorDisk (fatPrivate : Nat) :
    Ensures SectorDisk (fat16InitPrivate fatPrivate) fun _ => True := by
  refine .bind readDisk_sectorDisk fun disk _ => ?_
  refine .bind (store_sectorDisk _ _) fun _ _ => ?_
  refine .bind (diskstreamerNew_sectorDisk _) fun _ _ => ?_
  refine .bind (load_sectorDisk _ _) fun _ _ => .bind (store_sectorDisk _ _) fun _ _ => ?_
  refine .bind (diskstreamerNew_sectorDisk _) fun _ _ => ?_
  refine .bind (load_sectorDisk _ _) fun _ _ => .bind (store_sectorDisk _ _) fun _ _ => ?_
  refine .bind (diskstreamerNew_sectorDisk _) fun _ _ => ?_
  exact .bind (load_sectorDisk _ _) fun _ _ => store_sectorDisk _ _

end Steps

section Programs

variable {watched : StreamRead}

/-- **The scan.** It starts at a multiple of the size of an entry, which each entry keeps. -/
theorem fat16GetTotalItemsLoop_agrees (reader : SectorReader watched) (stream fuel : Nat) :
    ∀ i, Agrees (Positioned stream ((sizeofFatDirectoryItem : Int) ∣ ·))
      (fat16GetTotalItemsLoop watched stream fuel i)
      (fat16GetTotalItemsLoop diskstreamerRead stream fuel i) fun _ => SectorDisk := by
  induction fuel with
  | zero => exact fun _ => .fault _
  | succ fuel ih =>
      intro i
      have entry := reader stream sizeofFatDirectoryItem sizeofFatDirectoryItem (by decide) dvd_rfl
      refine .bind (entry.strengthen fun _ at_ => at_.mono fun pos whole => ⟨.inr ?_, whole⟩)
        fun result => ?_
      · unfold sizeofFatDirectoryItem at *
        omega
      · refine .ite (fun _ => .pure fun _ at_ => at_.sectorDisk) fun _ => ?_
        refine .ite (fun _ => .pure fun _ at_ => at_.sectorDisk) fun _ => ?_
        exact .ite (fun _ => ih _) fun _ => ih _

theorem fat16GetTotalItemsForDirectory_agrees (reader : SectorReader watched) (sector : Nat) :
    Agrees SectorDisk (fat16GetTotalItemsForDirectory watched sector)
      (fat16GetTotalItemsForDirectory diskstreamerRead sector) fun _ => SectorDisk := by
  refine .after loadPrivate_sectorDisk fun volume _ => ?_
  refine .after readDisk_sectorDisk fun disk sectorSize => ?_
  refine .bind (diskstreamerSeek_positioned _ _) fun res => ?_
  refine .ite (fun _ => .pure fun _ at_ => at_.sectorDisk) fun _ => ?_
  refine (fat16GetTotalItemsLoop_agrees reader _ _ _).strengthen fun _ at_ => at_.mono ?_
  intro pos start
  rw [sectorSize] at start
  unfold peachosSectorSize u32 i32 at start
  unfold sizeofFatDirectoryItem
  omega

theorem fat16GetRootDirectory_agrees (reader : SectorReader watched) (fatPrivate : Nat) :
    Agrees SectorDisk (fat16GetRootDirectory watched fatPrivate)
      (fat16GetRootDirectory diskstreamerRead fatPrivate) fun _ => SectorDisk := by
  have failed : ∀ dir, Agrees SectorDisk (do kfree dir; pure (-eio) : K Int)
      (do kfree dir; pure (-eio)) fun _ => SectorDisk :=
    fun dir => .after (kfree_sectorDisk dir) fun _ _ => .pure fun _ => id
  refine .after (load_sectorDisk _ _) fun volume _ => ?_
  refine .after readDisk_sectorDisk fun disk sectorSize => ?_
  refine .after (divide_sectorDisk _ _) fun _ _ => ?_
  refine .after (.ite (fun _ => .fault _) fun _ => .pure trivial) fun _ (_ : True) => ?_
  refine .bind (fat16GetTotalItemsForDirectory_agrees reader _) fun _ => ?_
  refine .after (kzalloc_sectorDisk _ _) fun dir _ => ?_
  refine .ite (fun _ => .pure fun _ => id) fun _ => ?_
  refine .bind (diskstreamerSeek_positioned _ _) fun _ => ?_
  refine .ite (fun _ => (failed dir).strengthen fun _ at_ => at_.sectorDisk) fun _ => ?_
  refine .bind (reader.read ?_) fun result => ?_
  · rintro _ rfl
    refine .inl ?_
    unfold fat16SectorToAbsolute i32
    rw [sectorSize]
    unfold peachosSectorSize
    omega
  · refine .after (writeBytes_sectorDisk _ _ _) fun _ _ => .ite (fun _ => failed dir) fun _ => ?_
    refine .after (load_sectorDisk _ _) fun _ _ => ?_
    exact .after (store_sectorDisk _ _) fun _ _ => .pure fun _ => id

theorem fat16ResolveHeader_agrees (reader : SectorReader watched) (fatPrivate stream : Nat) :
    Agrees (Positioned stream (· = 0)) (fat16ResolveHeader watched fatPrivate stream)
      (fat16ResolveHeader diskstreamerRead fatPrivate stream) fun _ => SectorDisk := by
  refine .bind (reader.read ?_) fun result => ?_
  · rintro _ rfl
    exact .inl (by decide)
  · refine .after (load_sectorDisk _ _) fun _ _ => .after (store_sectorDisk _ _) fun _ _ => ?_
    refine .ite (fun _ => .pure fun _ => id) fun _ => .ite (fun _ => .pure fun _ => id) fun _ => ?_
    refine .bind (fat16GetRootDirectory_agrees reader _) fun _ => ?_
    exact .ite (fun _ => .pure fun _ => id) fun _ => .pure fun _ => id

/-- What `fat16_resolve` does with its own stream, which is at the header. -/
theorem fat16ResolveStream_agrees (reader : SectorReader watched) (fatPrivate stream : Nat) :
    Agrees (fun kernel => SectorDisk kernel ∧ (stream ≠ 0 → Positioned stream (· = 0) kernel))
      (do
        if stream = 0 then pure (-enomem)
        else do
          let res ← fat16ResolveHeader watched fatPrivate stream
          diskstreamerClose stream
          pure res : K Int)
      (do
        if stream = 0 then pure (-enomem)
        else do
          let res ← fat16ResolveHeader diskstreamerRead fatPrivate stream
          diskstreamerClose stream
          pure res : K Int) fun _ => SectorDisk := by
  refine .ite (fun _ => .pure fun _ => And.left) fun notNull => ?_
  refine .bind ((fat16ResolveHeader_agrees reader _ _).strengthen fun _ held => held.2 notNull)
    fun res => ?_
  exact .after (kfree_sectorDisk _) fun _ _ => .pure fun _ => id

theorem fat16Resolve_agrees (reader : SectorReader watched) :
    Agrees SectorDisk (fat16Resolve watched) (fat16Resolve diskstreamerRead)
      fun _ => SectorDisk := by
  refine .after (kzalloc_sectorDisk _ _) fun fatPrivate _ => ?_
  refine .after (fat16InitPrivate_sectorDisk _) fun _ _ => ?_
  refine .after (.update fun _ held => held) fun _ _ => ?_
  refine .after readDisk_sectorDisk fun disk _ => ?_
  refine .bind (diskstreamerNew_positioned _) fun stream => ?_
  refine .bind (fat16ResolveStream_agrees reader _ _) fun res => ?_
  refine .ite (fun _ => .after (kfree_sectorDisk _) fun _ _ => ?_) fun _ => .pure fun _ => id
  exact .after (.update fun _ held => held) fun _ _ => .pure fun _ => id

/-- The entries of the table are at even positions. -/
theorem fat16GetFatEntry_agrees (reader : SectorReader watched) (cluster : Int) :
    Agrees SectorDisk (fat16GetFatEntry watched cluster)
      (fat16GetFatEntry diskstreamerRead cluster) fun _ => SectorDisk := by
  refine .after loadPrivate_sectorDisk fun volume _ => ?_
  refine .after readDisk_sectorDisk fun disk sectorSize => ?_
  refine .ite (fun _ => .pure fun _ => id) fun _ => ?_
  refine .bind (diskstreamerSeek_positioned _ _) fun _ => ?_
  refine .ite (fun _ => .pure fun _ at_ => at_.sectorDisk) fun _ => ?_
  refine .bind (reader.read ?_) fun result =>
    .ite (fun _ => .pure fun _ => id) fun _ => .pure fun _ => id
  intro pos entry
  rw [sectorSize] at entry
  unfold peachosSectorSize u32 i32 at entry
  refine .inr ?_
  omega

/-- **The walk** over the table. -/
theorem fat16GetClusterLoop_agrees (reader : SectorReader watched) (clustersAhead : Nat) :
    ∀ cluster, Agrees SectorDisk (fat16GetClusterLoop watched clustersAhead cluster)
      (fat16GetClusterLoop diskstreamerRead clustersAhead cluster) fun _ => SectorDisk := by
  induction clustersAhead with
  | zero => exact fun _ => .pure fun _ => id
  | succ clustersAhead ih =>
      intro cluster
      refine .bind (fat16GetFatEntry_agrees reader cluster) fun entry => ?_
      exact .ite (fun _ => .pure fun _ => id) fun _ => ih entry

theorem fat16GetClusterForOffset_agrees (reader : SectorReader watched) (cluster offset : Int) :
    Agrees SectorDisk (fat16GetClusterForOffset watched cluster offset)
      (fat16GetClusterForOffset diskstreamerRead cluster offset) fun _ => SectorDisk := by
  refine .after loadPrivate_sectorDisk fun volume _ => ?_
  refine .after readDisk_sectorDisk fun disk _ => ?_
  exact .after (divide_sectorDisk _ _) fun _ _ => fat16GetClusterLoop_agrees reader _ _

theorem dvd_sizeOfClusterBytes {volume : FatPrivate} {disk : Disk}
    (sectorSize : disk.sectorSize = peachosSectorSize) : 512 ∣ sizeOfClusterBytes volume disk := by
  unfold sizeOfClusterBytes
  rw [sectorSize]
  exact dvd_i32 dvd_rfl (Dvd.intro_left _ rfl)

/-- **The chain** of a directory, from a sector boundary on: each call of the recursion takes whole
sectors off it. -/
theorem fat16ReadInternalCalls_agrees (reader : SectorReader watched) (stream : Nat)
    (cluster : Int) (calls : Nat) : ∀ offset total : Int, 512 ∣ offset → Agrees SectorDisk
      (fat16ReadInternalCalls watched stream cluster calls offset total)
      (fat16ReadInternalCalls diskstreamerRead stream cluster calls offset total)
      fun _ => SectorDisk := by
  induction calls with
  | zero => exact fun _ _ _ => .fault _
  | succ calls ih =>
      intro offset total boundary
      refine .after loadPrivate_sectorDisk fun volume _ => ?_
      refine .after readDisk_sectorDisk fun disk sectorSize => ?_
      have clusterBytes := @dvd_sizeOfClusterBytes volume disk sectorSize
      refine .bind (fat16GetClusterForOffset_agrees reader _ _) fun clusterToUse => ?_
      refine .ite (fun _ => .pure fun _ => id) fun _ => ?_
      refine .after (remainder_sectorDisk boundary clusterBytes) fun rest within => ?_
      refine .bind (diskstreamerSeek_positioned _ _) fun _ => ?_
      refine .ite (fun _ => .pure fun _ at_ => at_.sectorDisk) fun _ => ?_
      refine .bind (reader.read ?_) fun result => ?_
      · rintro _ rfl
        refine .inl (dvd_i32 dvd_rfl (Int.dvd_add (dvd_i32 dvd_rfl ?_) within))
        rw [sectorSize]
        exact Dvd.intro_left _ rfl
      · refine .ite (fun _ => .pure fun _ => id) fun _ => ?_
        refine .ite (fun more => ?_) fun _ => .pure fun _ => id
        refine .bind (ih _ _ (dvd_i32 dvd_rfl (Int.dvd_add boundary ?_))) fun _ => .pure fun _ => id
        -- a read that leaves something over was of a whole cluster
        split
        · exact clusterBytes
        next whole => exact absurd more (by rw [if_neg whole]; omega)

theorem fat16FillDirectory_agrees (reader : SectorReader watched) (directory : Nat)
    (item : FatDirectoryItem) : Agrees SectorDisk (fat16FillDirectory watched directory item)
      (fat16FillDirectory diskstreamerRead directory item) fun _ => SectorDisk := by
  refine .after loadPrivate_sectorDisk fun volume _ => ?_
  refine .bind (fat16GetTotalItemsForDirectory_agrees reader _) fun totalItems => ?_
  refine .after (load_sectorDisk _ _) fun _ _ => .after (store_sectorDisk _ _) fun _ _ => ?_
  refine .after (kzalloc_sectorDisk _ _) fun buffer _ => ?_
  refine .after (load_sectorDisk _ _) fun _ _ => .after (store_sectorDisk _ _) fun _ _ => ?_
  refine .ite (fun _ => .pure fun _ => id) fun _ => ?_
  have chain : Agrees SectorDisk
      (fat16ReadInternal watched (i32 (fat16GetFirstCluster item)) 0
        (i32 (u32 (totalItems * sizeofFatDirectoryItem))))
      (fat16ReadInternal diskstreamerRead (i32 (fat16GetFirstCluster item)) 0
        (i32 (u32 (totalItems * sizeofFatDirectoryItem)))) fun _ => SectorDisk :=
    .after loadPrivate_sectorDisk fun _ _ =>
      fat16ReadInternalCalls_agrees reader _ _ _ _ _ (dvd_zero _)
  exact .bind chain fun _ => .after (writeBytes_sectorDisk _ _ _) fun _ _ => .pure fun _ => id

theorem fat16FreeDirectory_sectorDisk (directory : Nat) :
    Ensures SectorDisk (fat16FreeDirectory directory) fun _ => True := by
  refine .ite (fun _ => .pure trivial) fun _ => .bind (load_sectorDisk _ _) fun _ _ => ?_
  refine .ite (fun _ => ?_) fun _ => kfree_sectorDisk _
  exact .bind (kfree_sectorDisk _) fun _ _ => kfree_sectorDisk _

theorem fat16LoadFatDirectory_agrees (reader : SectorReader watched) (item : FatDirectoryItem) :
    Agrees SectorDisk (fat16LoadFatDirectory watched item)
      (fat16LoadFatDirectory diskstreamerRead item) fun _ => SectorDisk := by
  have freed : ∀ directory found : Nat, Agrees SectorDisk
      (do fat16FreeDirectory directory; pure found) (do fat16FreeDirectory directory; pure found)
      fun _ => SectorDisk :=
    fun directory _ => .after (fat16FreeDirectory_sectorDisk directory) fun _ _ => .pure fun _ => id
  refine .ite (fun _ => freed _ _) fun _ => ?_
  refine .after (kzalloc_sectorDisk _ _) fun directory _ => .ite (fun _ => freed _ _) fun _ => ?_
  refine .bind (fat16FillDirectory_agrees reader _ _) fun res => ?_
  exact .ite (fun _ => freed _ _) fun _ => .pure fun _ => id

end Programs

/-- **The metadata is read safely.** Whatever the header and the disk hold, on a disk with 512-byte
sectors every call of `diskstreamer_read` that the metadata functions make at a byte position in
range, recursive ones included, starts on a sector boundary or fits in the rest of its sector, and
indexes the sector buffer inside it. -/
theorem metadataReads_sectorSafe {kernel : Kernel}
    (sectorSize : kernel.disk.sectorSize = peachosSectorSize) :
    MetadataReads SectorSafe kernel := by
  have reader : ∀ reason, SectorReader (watchedRead SectorSafe reason) :=
    fun reason => watchedRead_sectorReader (fun _ _ => SectorCall.safe) reason
  constructor
  · exact fun reason => (fat16Resolve_agrees (reader reason) kernel sectorSize).1
  · exact fun fatPrivate reason =>
      (fat16GetRootDirectory_agrees (reader reason) fatPrivate kernel sectorSize).1
  · exact fun sector reason =>
      (fat16GetTotalItemsForDirectory_agrees (reader reason) sector kernel sectorSize).1
  · exact fun cluster reason =>
      (fat16GetFatEntry_agrees (reader reason) cluster kernel sectorSize).1
  · exact fun item reason =>
      (fat16LoadFatDirectory_agrees (reader reason) item kernel sectorSize).1

/-- The disk of the booted kernel has such sectors. -/
theorem metadataReads_sectorSafe_boot : MetadataReads SectorSafe (bootWithDisk []) :=
  metadataReads_sectorSafe rfl

end Peachos
