import Peachos.Fs.ClusterWalk
import Peachos.Kernel.Frame

/-! # What a call of the filesystem leaves alone

The filesystem allocates and frees blocks of its own while it moves the streams of the volume.
`Grown` is `Extended` for such a call: the blocks that were live before it are live after it,
and their objects are the same, up to the position of a stream.
-/

namespace Peachos

open CInt

/-- The object at `ptr` is the same, or a stream that was moved. -/
def Kernel.Keeps (kernel next : Kernel) (ptr : Nat) : Prop :=
  next.objs ptr = kernel.objs ptr ∨ ∃ before after : DiskStream,
    kernel.objs ptr = some (.diskStream before) ∧ next.objs ptr = some (.diskStream after) ∧
      after.disk = before.disk

namespace Kernel.Keeps

variable {kernel middle next : Kernel} {ptr : Nat}

theorem refl (kernel : Kernel) (ptr : Nat) : kernel.Keeps kernel ptr := .inl rfl

theorem trans (first : kernel.Keeps middle ptr) (second : middle.Keeps next ptr) :
    kernel.Keeps next ptr := by
  rcases first with same | ⟨before, between, started, stopped, disk⟩
  · unfold Kernel.Keeps at second ⊢
    rwa [← same]
  · rcases second with same | ⟨between', after, started', stopped', disk'⟩
    · exact .inr ⟨before, between, started, same.trans stopped, disk⟩
    · rw [stopped] at started'
      cases started'
      exact .inr ⟨before, after, started, stopped', disk'.trans disk⟩

/-- An object that is not a stream stays. -/
theorem obj (keeps : kernel.Keeps next ptr) {contents : Obj}
    (present : kernel.objs ptr = some contents) (other : contents.diskStream? = none) :
    next.objs ptr = some contents := by
  rcases keeps with same | ⟨before, after, started, _, _⟩
  · rw [same, present]
  · rw [present] at started
    cases started
    cases other

theorem onDisk (keeps : kernel.Keeps next ptr) (on : OnDisk kernel ptr) : OnDisk next ptr := by
  obtain ⟨value, present, disk⟩ := on
  rcases keeps with same | ⟨before, after, started, stopped, disk'⟩
  · exact ⟨value, same.trans present, disk⟩
  · rw [present] at started
    cases started
    exact ⟨after, stopped, disk'.trans disk⟩

end Kernel.Keeps

theorem OnlyStreams.isSome {kernel next : Kernel} (only : OnlyStreams kernel next) (ptr : Nat) :
    (next.objs ptr).isSome = (kernel.objs ptr).isSome := by
  rcases only.moved ptr with same | ⟨before, after, started, stopped, _⟩
  · rw [same]
  · rw [started, stopped]
    rfl

theorem OnlyStreams.heap {kernel next : Kernel} (only : OnlyStreams kernel next) :
    next.heap = kernel.heap := by
  rw [only.globals]

theorem OnlyStreams.invariant {kernel next : Kernel} (only : OnlyStreams kernel next)
    {region : KernelRegion} {live : List Allocation} (inv : KernelInvariant region live kernel) :
    KernelInvariant region live next := by
  refine ⟨by rw [only.heap]; exact inv.heap, fun allocation member => ?_, fun ptr present => ?_⟩
  · rw [only.isSome]
    exact inv.held allocation member
  · rw [only.isSome] at present
    rw [only.heap]
    exact inv.owned ptr present

theorem OnlyStreams.sameGlobals {kernel next : Kernel} (only : OnlyStreams kernel next) :
    kernel.SameGlobals next := by
  unfold Kernel.SameGlobals
  rw [only.heap]
  exact only.globals

/-- From `kernel` with the allocations `live` to `next` with `live'`, the blocks in `owned` were
allocated, and of the others only streams moved. -/
structure Grown (region : KernelRegion) (live live' : List Allocation) (kernel next : Kernel)
    (owned : Nat → Prop) : Prop where
  invariant : KernelInvariant region live' next
  grown : live ⊆ live'
  fresh : ∀ allocation ∈ live, ¬ owned allocation.ptr
  held : ∀ ptr, owned ptr → ∃ allocation ∈ live', allocation.ptr = ptr
  only : ∀ allocation ∈ live', allocation ∈ live ∨ owned allocation.ptr
  kept : ∀ allocation ∈ live, kernel.Keeps next allocation.ptr
  globals : kernel.SameGlobals next

theorem Extended.toGrown {region : KernelRegion} {live live' : List Allocation}
    {kernel next : Kernel} {owned : Nat → Prop}
    (extended : Extended region live live' kernel next owned) :
    Grown region live live' kernel next owned :=
  { extended with kept := fun allocation member => .inl (extended.kept allocation member) }

theorem OnlyStreams.toGrown {kernel next : Kernel} (only : OnlyStreams kernel next)
    {region : KernelRegion} {live : List Allocation} (inv : KernelInvariant region live kernel) :
    Grown region live live kernel next fun _ => False where
  invariant := only.invariant inv
  grown := List.Subset.refl _
  fresh := fun _ _ => id
  held := fun _ => False.elim
  only := fun _ => .inl
  kept := fun allocation _ => only.moved allocation.ptr
  globals := only.sameGlobals

namespace Grown

variable {region : KernelRegion} {live live' live'' : List Allocation}
  {kernel next last : Kernel} {owned owned' : Nat → Prop}

theorem refl (inv : KernelInvariant region live kernel) :
    Grown region live live kernel kernel fun _ => False :=
  (Extended.refl inv).toGrown

theorem congr (grown : Grown region live live' kernel next owned)
    (same : ∀ ptr, owned ptr ↔ owned' ptr) : Grown region live live' kernel next owned' := by
  rw [← show owned = owned' from funext fun ptr => propext (same ptr)]
  exact grown

/-- Two calls in a row. -/
theorem trans (first : Grown region live live' kernel next owned)
    (second : Grown region live' live'' next last owned') :
    Grown region live live'' kernel last fun ptr => owned ptr ∨ owned' ptr where
  invariant := second.invariant
  grown := List.Subset.trans first.grown second.grown
  fresh := by
    rintro allocation member (before | after)
    · exact first.fresh allocation member before
    · exact second.fresh allocation (first.grown member) after
  held := by
    rintro ptr (before | after)
    · obtain ⟨allocation, member, same⟩ := first.held ptr before
      exact ⟨allocation, second.grown member, same⟩
    · exact second.held ptr after
  only := by
    intro allocation member
    rcases second.only allocation member with before | own
    · exact (first.only allocation before).imp_right .inl
    · exact .inr (.inr own)
  kept := fun allocation member =>
    (first.kept allocation member).trans (second.kept allocation (first.grown member))
  globals := first.globals.trans second.globals

/-- A call that allocates nothing. -/
theorem stay (first : Grown region live live' kernel next owned)
    (second : Grown region live' live'' next last fun _ => False) :
    Grown region live live'' kernel last owned :=
  (first.trans second).congr fun _ => or_iff_left not_false

theorem streams (grown : Grown region live live' kernel next owned)
    (only : OnlyStreams next last) : Grown region live live' kernel last owned :=
  grown.stay (only.toGrown grown.invariant)

/-- One more allocation. -/
theorem placed (grown : Grown region live live' kernel next owned) {size ptr : Nat}
    {contents : Obj} (placed : Placed region live' (⟨ptr, size⟩ :: live') next contents ptr last) :
    Grown region live (⟨ptr, size⟩ :: live') kernel last fun other => other = ptr ∨ owned other :=
  (grown.trans ((Extended.refl grown.invariant).placed placed).toGrown).congr fun other => by
    rw [or_false, or_comm]

/-- An object that takes no block. -/
theorem placedEmpty (grown : Grown region live live' kernel next owned) {ptr : Nat}
    {contents : Obj} (placed : Placed region live' live' next contents ptr last) :
    Grown region live live' kernel last owned :=
  grown.stay ((Extended.refl grown.invariant).placedEmpty placed).toGrown

/-- Writing an object that no block of the start holds. -/
theorem setObj (grown : Grown region live live' kernel next owned) {ptr : Nat}
    (apart : ∀ allocation ∈ live, allocation.ptr ≠ ptr) (present : (next.objs ptr).isSome)
    (contents : Obj) : Grown region live live' kernel (next.setObj ptr (some contents)) owned where
  invariant := grown.invariant.setObj present contents
  grown := grown.grown
  fresh := grown.fresh
  held := grown.held
  only := grown.only
  kept := by
    intro allocation member
    unfold Kernel.Keeps
    rw [Kernel.setObj_objs_of_ne _ _ (apart allocation member)]
    exact grown.kept allocation member
  globals := grown.globals.trans rfl

/-- One `kfree` of what no block of the start holds. -/
theorem free (grown : Grown region live live' kernel next owned) {ptr : Nat}
    (apart : ∀ allocation ∈ live, allocation.ptr ≠ ptr) (present : (next.objs ptr).isSome) :
    ∃ live'' last, (kfree ptr).run next = .ok ((), last) ∧
      Grown region live live'' kernel last (fun other => owned other ∧ other ≠ ptr) ∧
      last.objs ptr = none ∧ ∀ other, other ≠ ptr → last.objs other = next.objs other := by
  obtain ⟨heap, run, inv⟩ := kfree_spec grown.invariant present
  have kept : ∀ other, other ≠ ptr →
      ({ next with heap := heap }.setObj ptr none).objs other = next.objs other :=
    fun other different => Kernel.setObj_objs_of_ne _ _ different
  refine ⟨_, _, run, ⟨inv, ?_, ?_, ?_, ?_, ?_, grown.globals.trans rfl⟩,
    Kernel.setObj_objs_self .., kept⟩
  · intro allocation member
    exact List.mem_filter.mpr ⟨grown.grown member, decide_eq_true (apart allocation member)⟩
  · rintro allocation member ⟨own, _⟩
    exact grown.fresh allocation member own
  · rintro other ⟨own, different⟩
    obtain ⟨allocation, member, rfl⟩ := grown.held other own
    exact ⟨allocation, List.mem_filter.mpr ⟨member, decide_eq_true different⟩, rfl⟩
  · intro allocation member
    obtain ⟨old, different⟩ := List.mem_filter.mp member
    exact (grown.only allocation old).imp_right fun own => ⟨own, of_decide_eq_true different⟩
  · intro allocation member
    unfold Kernel.Keeps
    rw [kept _ (apart allocation member)]
    exact grown.kept allocation member

/-- What the blocks of the start hold stays, up to the position of a stream. -/
theorem keeps (grown : Grown region live live' kernel next owned) {ptr : Nat}
    (held : ∃ allocation ∈ live, allocation.ptr = ptr) : kernel.Keeps next ptr := by
  obtain ⟨allocation, member, rfl⟩ := held
  exact grown.kept allocation member

theorem drive (grown : Grown region live live' kernel next owned) : next.drive = kernel.drive := by
  rw [grown.globals]

theorem disk (grown : Grown region live live' kernel next owned) : next.disk = kernel.disk := by
  rw [grown.globals]

theorem heldStill (grown : Grown region live live' kernel next owned) {ptr : Nat}
    (held : ∃ allocation ∈ live, allocation.ptr = ptr) :
    ∃ allocation ∈ live', allocation.ptr = ptr := by
  obtain ⟨allocation, member, same⟩ := held
  exact ⟨allocation, grown.grown member, same⟩

end Grown

/-- The reader moves streams and nothing else, and a read of a stream of the disk succeeds. -/
structure ReadsStreams (read : StreamRead) : Prop where
  moves : ∀ start stream total, Exec.Ensures (OnlyStreams start) (read stream total) fun _ => True
  succeeds : ∀ stream total,
    Exec.Ensures (OnDisk · stream) (read stream total) fun result => result.1 = 0

/-- A part of the disk is always read. -/
theorem diskReadBlock_succeeds {invariant : Kernel → Prop} (lba : Nat) (total : Int) :
    Exec.Ensures invariant (diskReadBlock .disk lba total) fun result => result.1 = 0 := by
  have drive : Exec.Ensures invariant (Exec.read Kernel.drive : K (Nat → UInt8)) fun _ => True :=
    .read fun _ _ => trivial
  rw [diskReadBlock, if_neg (not_not.mpr rfl)]
  exact .bind drive fun _ _ => .pure rfl

theorem diskstreamerReadCalls_succeeds (stream calls : Nat) (total : Int) :
    Exec.Ensures (OnDisk · stream) (diskstreamerReadCalls stream calls total)
      fun result => result.1 = 0 := by
  induction calls generalizing total with
  | zero => exact .fault _
  | succ calls ih =>
      unfold diskstreamerReadCalls
      have onDisk : Exec.Ensures (OnDisk · stream) (load Obj.diskStream? stream)
          fun value => value.disk = .disk := by
        refine .demand ?_
        rintro kernel found ⟨value, present, disk⟩ viewed
        rw [present] at viewed
        cases viewed
        exact disk
      refine .bind onDisk fun value disk => ?_
      rw [disk]
      refine .bind (diskReadBlock_succeeds _ _) fun sector delivered => ?_
      refine .ite (fun failed => absurd failed (by rw [delivered]; decide)) fun _ => ?_
      refine .bind (copyBuffer_ensures _ _ _) fun copied _ => ?_
      apply loadStore_ensures
      · rintro kernel contents value ⟨before, present, disk⟩ present' typed
        rw [present] at present'
        cases present'
        cases typed
        exact ⟨_, Kernel.setObj_objs_self .., disk⟩
      · intro value
        exact .ite (fun _ => .bind (ih _) fun _ rest => .pure rest) fun _ => .pure delivered

theorem diskstreamerRead_readsStreams : ReadsStreams diskstreamerRead where
  moves := by
    intro start stream total
    apply diskstreamerReadCalls_ensures
    intro kernel value pos only present
    exact only.trans (.setObj present rfl)
  succeeds := fun _ _ => diskstreamerReadCalls_succeeds _ _ _

/-- The streams of a volume. -/
def FatPrivate.streams (volume : FatPrivate) : List Nat :=
  [volume.clusterReadStream, volume.fatReadStream, volume.directoryStream]

/-- The private structure of the volume and its streams are live. -/
structure VolumeLive (live : List Allocation) (volume : FatPrivate) (kernel : Kernel) : Prop where
  fsPrivate : kernel.objs kernel.disk.fsPrivate = some (.fatPrivate volume)
  onDisk : ∀ stream ∈ volume.streams, OnDisk kernel stream
  privateHeld : ∃ allocation ∈ live, allocation.ptr = kernel.disk.fsPrivate
  streamsHeld : ∀ stream ∈ volume.streams, ∃ allocation ∈ live, allocation.ptr = stream

/-- The volume is mounted, and the buffer of its root directory is live. -/
structure RootLive (live : List Allocation) (volume : FatPrivate) (kernel : Kernel) : Prop where
  volumeLive : VolumeLive live volume kernel
  buffer : ∃ contents, kernel.objs volume.rootDirectory.item = some (.bytes contents)
  held : ∃ allocation ∈ live, allocation.ptr = volume.rootDirectory.item

section Volume

variable {region : KernelRegion} {live live' : List Allocation} {kernel next : Kernel}
  {volume : FatPrivate} {owned : Nat → Prop}

theorem VolumeLive.grown (mounted : VolumeLive live volume kernel)
    (grown : Grown region live live' kernel next owned) : VolumeLive live' volume next where
  fsPrivate := by
    rw [grown.disk]
    exact (grown.keeps mounted.privateHeld).obj mounted.fsPrivate rfl
  onDisk := fun stream member =>
    (grown.keeps (mounted.streamsHeld stream member)).onDisk (mounted.onDisk stream member)
  privateHeld := by
    rw [grown.disk]
    exact grown.heldStill mounted.privateHeld
  streamsHeld := fun stream member => grown.heldStill (mounted.streamsHeld stream member)

theorem RootLive.grown (root : RootLive live volume kernel)
    (grown : Grown region live live' kernel next owned) : RootLive live' volume next where
  volumeLive := root.volumeLive.grown grown
  buffer := by
    obtain ⟨contents, buffer⟩ := root.buffer
    exact ⟨contents, (grown.keeps root.held).obj buffer rfl⟩
  held := grown.heldStill root.held

theorem VolumeLive.directoryStream (mounted : VolumeLive live volume kernel) :
    OnDisk kernel volume.directoryStream :=
  mounted.onDisk _ (List.mem_cons_of_mem _ (List.mem_cons_of_mem _ List.mem_cons_self))

theorem VolumeLive.loadPrivate_run (mounted : VolumeLive live volume kernel) :
    loadPrivate.run kernel = .ok (volume, kernel) := by
  rw [loadPrivate, Exec.bind_of_ok (Exec.run_read _ _)]
  exact load_of_obj mounted.fsPrivate rfl

/-- Writing the private structure leaves the other objects. -/
theorem VolumeLive.setPrivate_objs (mounted : VolumeLive live volume kernel) (value : FatPrivate)
    {ptr : Nat} {contents : Obj} (here : kernel.objs ptr = some contents)
    (other : contents.fatPrivate? = none) :
    (kernel.setObj kernel.disk.fsPrivate (some (.fatPrivate value))).objs ptr = some contents := by
  refine (Kernel.setObj_objs_of_ne _ _ (Kernel.ne_of_objs here mounted.fsPrivate ?_)).trans here
  rintro rfl
  cases other

/-- A private structure with the same streams can be written. -/
theorem VolumeLive.setPrivate (mounted : VolumeLive live volume kernel) {value : FatPrivate}
    (same : value.streams = volume.streams) :
    VolumeLive live value (kernel.setObj kernel.disk.fsPrivate (some (.fatPrivate value))) where
  fsPrivate := Kernel.setObj_objs_self ..
  onDisk := fun stream member => by
    obtain ⟨found, here, onDisk⟩ := mounted.onDisk stream (same ▸ member)
    exact ⟨found, mounted.setPrivate_objs value here rfl, onDisk⟩
  privateHeld := mounted.privateHeld
  streamsHeld := fun stream member => mounted.streamsHeld stream (same ▸ member)

/-- What is mounted stays mounted. -/
theorem Mounted.grown (mounted : Mounted volume kernel) (held : VolumeLive live volume kernel)
    (grown : Grown region live live' kernel next owned) : Mounted volume next := by
  have after := held.grown grown
  exact {
    mounted with
    sectorSize := by rw [grown.disk]; exact mounted.sectorSize
    fsPrivate := after.fsPrivate
    clusterReadStream := after.onDisk _ List.mem_cons_self
    fatReadStream := after.onDisk _ (List.mem_cons_of_mem _ List.mem_cons_self) }

end Volume

section Streams

variable {read : StreamRead} {start : Kernel}

theorem readDisk_streams : Exec.Ensures (OnlyStreams start) (Exec.read Kernel.disk : K Disk)
    fun _ => True :=
  .read fun _ _ => trivial

theorem loadPrivate_streams :
    Exec.Ensures (OnlyStreams start) loadPrivate fun _ => True :=
  .bind readDisk_streams fun _ _ => .demand fun _ _ _ _ => trivial

theorem diskstreamerSeek_streams (stream : Nat) (pos : Int) :
    Exec.Ensures (OnlyStreams start) (diskstreamerSeek stream pos) fun result => result = 0 := by
  apply loadStore_ensures
  · intro kernel contents value only present typed
    cases contents <;> cases typed
    exact only.trans (.setObj present rfl)
  · exact fun _ => .pure rfl

theorem divide_streams (dividend divisor : Int) :
    Exec.Ensures (OnlyStreams start) (divide dividend divisor) fun _ => True :=
  .ite (fun _ => .fault _) fun _ => .pure trivial

theorem remainder_streams (dividend divisor : Int) :
    Exec.Ensures (OnlyStreams start) (remainder dividend divisor) fun _ => True :=
  .ite (fun _ => .fault _) fun _ => .pure trivial

theorem fat16GetFatEntry_streams (reads : ReadsStreams read) (cluster : Int) :
    Exec.Ensures (OnlyStreams start) (fat16GetFatEntry read cluster) fun _ => True := by
  refine .bind loadPrivate_streams fun volume _ => ?_
  refine .bind readDisk_streams fun disk _ => ?_
  refine .ite (fun _ => .pure trivial) fun _ => ?_
  refine .bind (diskstreamerSeek_streams _ _) fun res _ => ?_
  refine .ite (fun _ => .pure trivial) fun _ => ?_
  exact .bind (reads.moves _ _ _) fun _ _ => .ite (fun _ => .pure trivial) fun _ => .pure trivial

theorem fat16GetClusterLoop_streams (reads : ReadsStreams read) (clustersAhead : Nat) :
    ∀ cluster, Exec.Ensures (OnlyStreams start) (fat16GetClusterLoop read clustersAhead cluster)
      fun _ => True := by
  induction clustersAhead with
  | zero => exact fun _ => .pure trivial
  | succ clustersAhead ih =>
      exact fun cluster => .bind (fat16GetFatEntry_streams reads cluster) fun entry _ =>
        .ite (fun _ => .pure trivial) fun _ => ih entry

theorem fat16GetClusterForOffset_streams (reads : ReadsStreams read) (cluster offset : Int) :
    Exec.Ensures (OnlyStreams start) (fat16GetClusterForOffset read cluster offset)
      fun _ => True := by
  refine .bind loadPrivate_streams fun volume _ => ?_
  refine .bind readDisk_streams fun disk _ => ?_
  exact .bind (divide_streams _ _) fun _ _ => fat16GetClusterLoop_streams reads _ _

theorem fat16ReadInternalCalls_streams (reads : ReadsStreams read) (stream : Nat) (cluster : Int)
    (calls : Nat) : ∀ offset total, Exec.Ensures (OnlyStreams start)
      (fat16ReadInternalCalls read stream cluster calls offset total) fun _ => True := by
  induction calls with
  | zero => exact fun _ _ => .fault _
  | succ calls ih =>
      intro offset total
      refine .bind loadPrivate_streams fun volume _ => ?_
      refine .bind readDisk_streams fun disk _ => ?_
      refine .bind (fat16GetClusterForOffset_streams reads _ _) fun clusterToUse _ => ?_
      refine .ite (fun _ => .pure trivial) fun _ => ?_
      refine .bind (remainder_streams _ _) fun _ _ => ?_
      refine .bind (diskstreamerSeek_streams _ _) fun _ _ => ?_
      refine .ite (fun _ => .pure trivial) fun _ => ?_
      refine .bind (reads.moves _ _ _) fun result _ => ?_
      refine .ite (fun _ => .pure trivial) fun _ => ?_
      exact .ite (fun _ => .bind (ih _ _) fun _ _ => .pure trivial) fun _ => .pure trivial

theorem fat16ReadInternal_streams (reads : ReadsStreams read) (cluster offset total : Int) :
    Exec.Ensures (OnlyStreams start) (fat16ReadInternal read cluster offset total)
      fun _ => True :=
  .bind loadPrivate_streams fun _ _ => fat16ReadInternalCalls_streams reads _ _ _ _ _

/-- The count of a directory is the number of turns of the loop at most. -/
theorem fat16GetTotalItemsLoop_streams (reads : ReadsStreams read) {stream : Nat} (fuel : Nat) :
    ∀ (i : Nat), i + fuel < 2147483648 → Exec.Ensures
      (fun kernel => OnlyStreams start kernel ∧ OnDisk kernel stream)
      (fat16GetTotalItemsLoop read stream fuel i)
      fun total => ∃ count : Nat, total = count ∧ count < i + fuel := by
  induction fuel with
  | zero => exact fun _ _ => .fault _
  | succ fuel ih =>
      intro i small
      have item : Exec.Ensures (fun kernel => OnlyStreams start kernel ∧ OnDisk kernel stream)
          (read stream sizeofFatDirectoryItem) fun result => result.1 = 0 := by
        rintro kernel result next ⟨only, on⟩ run
        have done := reads.succeeds stream _ kernel result next on run
        exact ⟨⟨(reads.moves start stream _ kernel result next only run).1, done.1⟩, done.2⟩
      refine .bind item fun result delivered => ?_
      refine .ite (fun failed => absurd delivered failed) fun _ => ?_
      refine .ite (fun _ => .pure ⟨i, rfl, by omega⟩) fun _ => ?_
      refine .ite (fun _ => (ih i (by omega)).mono ?_) fun _ => ?_
      · rintro _ ⟨count, rfl, less⟩
        exact ⟨count, rfl, by omega⟩
      · rw [i32_of_range (by omega) (by omega)]
        refine (ih (i + 1) (by omega)).mono ?_
        rintro _ ⟨count, rfl, less⟩
        exact ⟨count, rfl, by omega⟩

/-- A completed count of a directory. -/
theorem fat16GetTotalItemsForDirectory_completed (reads : ReadsStreams read)
    {live : List Allocation} {volume : FatPrivate} {kernel next : Kernel} {sector : Nat}
    {total : Int} (mounted : VolumeLive live volume kernel)
    (run : (fat16GetTotalItemsForDirectory read sector).run kernel = .ok (total, next)) :
    OnlyStreams kernel next ∧ ∃ count : Nat, total = count ∧ count < 67108866 := by
  rw [fat16GetTotalItemsForDirectory, Exec.bind_of_ok mounted.loadPrivate_run,
    Exec.bind_of_ok (Exec.run_read _ _)] at run
  obtain ⟨res, middle, sought, counted⟩ := Exec.bind_eq_ok.mp run
  obtain ⟨only, rfl⟩ := diskstreamerSeek_streams _ _ kernel res middle (.refl kernel) sought
  rw [if_neg (not_not.mpr rfl)] at counted
  obtain ⟨⟨only', _⟩, count, same, less⟩ := fat16GetTotalItemsLoop_streams reads 67108866 0
    (by decide) middle total next ⟨only, mounted.directoryStream.of_onlyStreams only⟩ counted
  exact ⟨only', count, same, by omega⟩

end Streams

end Peachos
