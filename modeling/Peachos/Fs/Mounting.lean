import Peachos.Fs.DirectoryFill
import Peachos.Fs.FileTableRuns
import Peachos.Fs.ResolveError
import Peachos.Fs.RootBounds

/-! # Mounting at boot

`fs_init` clears the table of open files and registers FAT16, and `disk_search_and_init` asks each
registered filesystem to resolve the disk. A boot that completes leaves the disk without a
filesystem, or with a mounted volume and an empty table of open files (`mountDisk_ready`).
-/

namespace Peachos

open CInt Window Exec

abbrev peachosMaxFilesystems : Nat := 12

/-- Read `filesystems[index]`. -/
def readFilesystems (index : Nat) : K (Option Filesystem) :=
  Exec.demand (.bufferIndex index) fun kernel => kernel.filesystems[index]?

/-- The loop of `fs_get_free_filesystem` from index `i` on. -/
def fsGetFreeFilesystemLoop : (count i : Nat) → K (Option Nat)
  | 0, _ => pure none
  | count + 1, i => do
      let slot ← readFilesystems i
      if slot = none then pure (some i) else fsGetFreeFilesystemLoop count (i + 1)

/-- The index of the slot that `fs_get_free_filesystem` points to. -/
def fsGetFreeFilesystem : K (Option Nat) := fsGetFreeFilesystemLoop peachosMaxFilesystems 0

/-- Without a free slot `fs_insert_filesystem` prints a message and never returns. -/
def fsInsertFilesystem (filesystem : Filesystem) : K Unit := do
  let slot ← fsGetFreeFilesystem
  match slot with
  | none => Exec.fault .diverges
  | some index => Exec.update fun kernel =>
      { kernel with filesystems := kernel.filesystems.set index (some filesystem) }

def fat16Init : Filesystem := .fat16

def fsStaticLoad : K Unit := fsInsertFilesystem fat16Init

def fsLoad : K Unit := do
  Exec.update fun kernel =>
    { kernel with filesystems := List.replicate peachosMaxFilesystems none }
  fsStaticLoad

def fsInit : K Unit := do
  Exec.update fun kernel =>
    { kernel with fileDescriptors := List.replicate peachosMaxFileDescriptors 0 }
  fsLoad

section Reader

variable (read : StreamRead)

/-- The loop of `fs_resolve` from index `i` on. -/
def fsResolveLoop : (count i : Nat) → K (Option Filesystem)
  | 0, _ => pure none
  | count + 1, i => do
      let slot ← readFilesystems i
      match slot with
      | none => fsResolveLoop count (i + 1)
      | some .fat16 => do
          let res ← fat16Resolve read
          if res = 0 then pure (some .fat16) else fsResolveLoop count (i + 1)

def fsResolve : K (Option Filesystem) := fsResolveLoop read peachosMaxFilesystems 0

def diskSearchAndInit : K Unit := do
  Exec.update fun kernel => { kernel with disk :=
    { sectorSize := 0, id := 0, filesystem := none, fsPrivate := 0 } }
  Exec.update fun kernel => { kernel with disk :=
    { kernel.disk with sectorSize := peachosSectorSize, id := 0 } }
  let filesystem ← fsResolve read
  Exec.update fun kernel => { kernel with disk := { kernel.disk with filesystem := filesystem } }

/-- The two calls of `kernel_main`. -/
def mountDisk : K Unit := do
  fsInit
  diskSearchAndInit read

end Reader

/-- The registry after `fs_init`. -/
abbrev bootFilesystems : List (Option Filesystem) := [some .fat16, none, none, none, none, none,
  none, none, none, none, none, none]

theorem fsInit_run (kernel : Kernel) : fsInit.run kernel = .ok ((), { kernel with
    fileDescriptors := List.replicate peachosMaxFileDescriptors 0
    filesystems := bootFilesystems }) := rfl

/-- The two states differ in the heap, its objects and the disk structure only. -/
def Kernel.SameTables (kernel next : Kernel) : Prop :=
  next = { kernel with heap := next.heap, objs := next.objs, disk := next.disk }

theorem Kernel.SameTables.trans {first second third : Kernel} (before : first.SameTables second)
    (after : second.SameTables third) : first.SameTables third := by
  unfold Kernel.SameTables at *
  rw [after, before]

section Tables

variable {start kernel : Kernel} {read : StreamRead}

theorem store_sameTables (ptr : Nat) (contents : Obj) :
    Ensures start.SameTables (store ptr contents) fun _ => True := by
  intro kernel done next same run
  obtain ⟨_, rfl⟩ := store_eq_ok.mp run
  exact ⟨same.trans rfl, trivial⟩

theorem load_sameTables {α : Type} (view : Obj → Option α) (ptr : Nat) :
    Ensures start.SameTables (load view ptr) fun _ => True :=
  .demand fun _ _ _ _ => trivial

theorem writeBytes_sameTables (ptr offset : Nat) (out : List UInt8) :
    Ensures start.SameTables (writeBytes ptr offset out) fun _ => True :=
  .bind (load_sameTables _ _) fun _ _ => .ite (fun _ => store_sameTables _ _) fun _ => .fault _

theorem onHeap_sameTables {α : Type} (program : HeapM α) :
    Ensures start.SameTables (onHeap program) fun _ => True := by
  intro kernel value next same run
  obtain ⟨heap, _, rfl⟩ := zoom_eq_ok.mp run
  exact ⟨same.trans rfl, trivial⟩

theorem update_sameTables {change : Kernel → Kernel}
    (changes : ∀ kernel : Kernel, kernel.SameTables (change kernel)) :
    Ensures start.SameTables (Exec.update change : K Unit) fun _ => True :=
  .update fun kernel same => same.trans (changes kernel)

theorem streams_sameTables {α : Type} {program : K α} {post : α → Prop}
    (moves : ∀ kernel, Ensures (OnlyStreams kernel) program post) :
    Ensures start.SameTables program fun _ => True := by
  intro kernel value next same run
  have only := (moves kernel kernel value next (.refl kernel) run).1
  refine ⟨same.trans ?_, trivial⟩
  unfold Kernel.SameTables
  rw [only.globals]

theorem kmalloc_sameTables (size : Nat) (contents : Obj) :
    Ensures start.SameTables (kmalloc size contents) fun _ => True := by
  refine .bind (onHeap_sameTables _) fun ptr _ => .ite (fun _ => .pure trivial) fun _ => ?_
  exact .bind (update_sameTables fun _ => rfl) fun _ _ => .pure trivial

theorem kfree_sameTables (ptr : Nat) : Ensures start.SameTables (kfree ptr) fun _ => True := by
  have live : Ensures start.SameTables (Exec.read fun kernel => (kernel.objs ptr).isSome : K Bool)
      fun _ => True := .read fun _ _ => trivial
  refine .bind live fun _ _ => .ite (fun _ => ?_) fun _ => .fault _
  exact .bind (onHeap_sameTables _) fun _ _ => update_sameTables fun _ => rfl

theorem readDisk_sameTables : Ensures start.SameTables (Exec.read Kernel.disk : K Disk)
    fun _ => True := .read fun _ _ => trivial

theorem diskstreamerNew_sameTables (diskId : Int) :
    Ensures start.SameTables (diskstreamerNew diskId) fun _ => True := by
  refine .ite (fun _ => .pure trivial) fun _ => .bind (kmalloc_sameTables _ _) fun stream _ => ?_
  refine .bind (load_sameTables _ _) fun _ _ => .bind (store_sameTables _ _) fun _ _ => ?_
  refine .bind (load_sameTables _ _) fun _ _ => .bind (store_sameTables _ _) fun _ _ => ?_
  exact .pure trivial

theorem fat16InitPrivate_sameTables (fatPrivate : Nat) :
    Ensures start.SameTables (fat16InitPrivate fatPrivate) fun _ => True := by
  refine .bind readDisk_sameTables fun disk _ => .bind (store_sameTables _ _) fun _ _ => ?_
  refine .bind (diskstreamerNew_sameTables _) fun _ _ => ?_
  refine .bind (load_sameTables _ _) fun _ _ => .bind (store_sameTables _ _) fun _ _ => ?_
  refine .bind (diskstreamerNew_sameTables _) fun _ _ => ?_
  refine .bind (load_sameTables _ _) fun _ _ => .bind (store_sameTables _ _) fun _ _ => ?_
  refine .bind (diskstreamerNew_sameTables _) fun _ _ => ?_
  exact .bind (load_sameTables _ _) fun _ _ => store_sameTables _ _

theorem fat16GetRootDirectory_sameTables (reads : ReadsStreams read) (fatPrivate : Nat) :
    Ensures start.SameTables (fat16GetRootDirectory read fatPrivate) fun _ => True := by
  have failed : ∀ dir, Ensures start.SameTables (do kfree dir; pure (-eio) : K Int) fun _ => True :=
    fun dir => .bind (kfree_sameTables dir) fun _ _ => .pure trivial
  refine .bind (load_sameTables _ _) fun volume _ => .bind readDisk_sameTables fun disk _ => ?_
  refine .bind (streams_sameTables fun _ => divide_streams _ _) fun _ _ => ?_
  refine .bind (streams_sameTables fun _ => remainder_streams _ _) fun _ _ => ?_
  refine .bind (streams_sameTables fun _ => fat16GetTotalItemsForDirectory_streams reads _)
    fun _ _ => ?_
  refine .bind (kmalloc_sameTables _ _) fun dir _ => .ite (fun _ => .pure trivial) fun _ => ?_
  refine .bind (streams_sameTables fun _ => diskstreamerSeek_streams _ _) fun _ _ => ?_
  refine .ite (fun _ => failed dir) fun _ => ?_
  refine .bind (streams_sameTables fun _ => reads.moves _ _ _) fun _ _ => ?_
  refine .bind (writeBytes_sameTables _ _ _) fun _ _ => .ite (fun _ => failed dir) fun _ => ?_
  exact .bind (load_sameTables _ _) fun _ _ => .bind (store_sameTables _ _) fun _ _ => .pure trivial

theorem fat16ResolveHeader_sameTables (reads : ReadsStreams read) (fatPrivate stream : Nat) :
    Ensures start.SameTables (fat16ResolveHeader read fatPrivate stream) fun _ => True := by
  refine .bind (streams_sameTables fun _ => reads.moves _ _ _) fun result _ => ?_
  refine .bind (load_sameTables _ _) fun _ _ => .bind (store_sameTables _ _) fun _ _ => ?_
  refine .ite (fun _ => .pure trivial) fun _ => .ite (fun _ => .pure trivial) fun _ => ?_
  exact .bind (fat16GetRootDirectory_sameTables reads _) fun _ _ =>
    .ite (fun _ => .pure trivial) fun _ => .pure trivial

/-- Resolving a disk changes no table of the filesystems and of the open files. -/
theorem fat16Resolve_sameTables (reads : ReadsStreams read) :
    Ensures start.SameTables (fat16Resolve read) fun _ => True := by
  have opened : ∀ fatPrivate stream, Ensures start.SameTables (do
      if stream = 0 then pure (-enomem)
      else do
        let res ← fat16ResolveHeader read fatPrivate stream
        diskstreamerClose stream
        pure res : K Int) fun _ => True := fun fatPrivate stream =>
    .ite (fun _ => .pure trivial) fun _ =>
      .bind (fat16ResolveHeader_sameTables reads _ _) fun _ _ =>
        .bind (kfree_sameTables _) fun _ _ => .pure trivial
  refine .bind (kmalloc_sameTables _ _) fun fatPrivate _ => ?_
  refine .bind (fat16InitPrivate_sameTables _) fun _ _ => ?_
  refine .bind (update_sameTables fun _ => rfl) fun _ _ => .bind readDisk_sameTables fun _ _ => ?_
  refine .bind (diskstreamerNew_sameTables _) fun stream _ => ?_
  refine .bind (opened fatPrivate stream) fun res _ => .ite (fun _ => ?_) fun _ => .pure trivial
  refine .bind (kfree_sameTables _) fun _ _ => .bind (update_sameTables fun _ => rfl) fun _ _ => ?_
  exact .pure trivial

end Tables

section Streams

variable {region : KernelRegion} {live live' : List Allocation} {kernel next : Kernel}
  {fatPrivate stream : Nat} {value : FatPrivate}

/-- A stream that was made is a new block. -/
theorem diskstreamerNew_completed (inv : KernelInvariant region live kernel)
    (run : (diskstreamerNew 0).run kernel = .ok (stream, next)) :
    Placed region live (⟨stream, 8⟩ :: live) kernel (streamAt 0) stream next := by
  rw [diskstreamerNew, if_neg (by decide)] at run
  obtain ⟨ptr, allocated, requested, run₁⟩ := bind_eq_ok.mp run
  obtain ⟨_, _, here, _, run₂⟩ := load_bind_eq_ok.mp run₁
  have placed := kmalloc_used inv (by decide) (by decide) requested (by rw [here]; rfl)
  obtain ⟨_, run₃⟩ := store_bind_eq_ok.mp run₂
  obtain ⟨object, value, found, typed, run₄⟩ := load_bind_eq_ok.mp run₃
  obtain ⟨_, run₅⟩ := store_bind_eq_ok.mp run₄
  cases run₅
  rw [Kernel.setObj_objs_self] at found
  cases found
  cases typed
  rw [placed.present] at here
  cases here
  exact (placed.write _).write _

/-- The new stream in the private structure. -/
theorem Placed.streamAdded
    (placed : Placed region live (⟨stream, 8⟩ :: live) kernel (streamAt 0) stream next)
    (present : kernel.objs fatPrivate = some (.fatPrivate value))
    (held : ∃ allocation ∈ live, allocation.ptr = fatPrivate) (change : FatPrivate) :
    next.objs fatPrivate = some (.fatPrivate value) ∧ StreamAdded region live kernel
      (next.setObj fatPrivate (some (.fatPrivate change))) fatPrivate change stream := by
  obtain ⟨home, member, rfl⟩ := held
  have here : next.objs home.ptr = some (.fatPrivate value) :=
    (placed.kept home member).trans present
  refine ⟨here, placed.invariant.setObj (by rw [here]; rfl) _, Kernel.setObj_objs_self .., ?_, ?_,
    placed.globals.trans rfl⟩
  · rw [Kernel.setObj_objs_of_ne _ _ (placed.fresh home member).symm, placed.present]
  · intro allocation old different
    rw [Kernel.setObj_objs_of_ne _ _ different, placed.kept allocation old]

/-- The private structure with its three streams, which are new blocks. -/
structure PrivateReady (region : KernelRegion) (live live' : List Allocation)
    (kernel next : Kernel) (fatPrivate : Nat) (volume : FatPrivate) : Prop where
  invariant : KernelInvariant region live' next
  grown : live ⊆ live'
  present : next.objs fatPrivate = some (.fatPrivate volume)
  streams : ∀ stream ∈ volume.streams, next.objs stream = some (streamAt 0) ∧
    ∃ allocation ∈ live', allocation.ptr = stream
  globals : kernel.SameGlobals next

theorem fat16InitPrivate_completed (inv : KernelInvariant region live kernel)
    (held : ∃ allocation ∈ live, allocation.ptr = fatPrivate) (id : kernel.disk.id = 0)
    (run : (fat16InitPrivate fatPrivate).run kernel = .ok ((), next)) :
    ∃ live' volume, PrivateReady region live live' kernel next fatPrivate volume := by
  rw [fat16InitPrivate, bind_of_ok (run_read _ _), id] at run
  obtain ⟨there, run⟩ := store_bind_eq_ok.mp run
  have inv' := inv.setObj there (.fatPrivate {})
  have grow : ∀ {stream : Nat} {live : List Allocation},
      (∃ allocation ∈ live, allocation.ptr = fatPrivate) →
        ∃ allocation ∈ (⟨stream, 8⟩ :: live : List Allocation), allocation.ptr = fatPrivate := by
    rintro stream live ⟨allocation, member, same⟩
    exact ⟨allocation, List.mem_cons_of_mem _ member, same⟩
  obtain ⟨first, _, new, run⟩ := bind_eq_ok.mp run
  obtain ⟨here, added⟩ := (diskstreamerNew_completed inv' new).streamAdded
    (Kernel.setObj_objs_self ..) held { clusterReadStream := first }
  have loaded : (load Obj.fatPrivate? fatPrivate).run _ = .ok (_, _) := load_of_obj here rfl
  rw [bind_of_ok loaded] at run
  obtain ⟨_, run⟩ := store_bind_eq_ok.mp run
  obtain ⟨second, _, new₂, run⟩ := bind_eq_ok.mp run
  obtain ⟨here₂, added₂⟩ := (diskstreamerNew_completed added.invariant new₂).streamAdded
    added.changed (grow held) { clusterReadStream := first, fatReadStream := second }
  have loaded₂ : (load Obj.fatPrivate? fatPrivate).run _ = .ok (_, _) := load_of_obj here₂ rfl
  rw [bind_of_ok loaded₂] at run
  obtain ⟨_, run⟩ := store_bind_eq_ok.mp run
  obtain ⟨third, _, new₃, run⟩ := bind_eq_ok.mp run
  obtain ⟨here₃, added₃⟩ := (diskstreamerNew_completed added₂.invariant new₃).streamAdded
    added₂.changed (grow (grow held))
    { clusterReadStream := first, fatReadStream := second, directoryStream := third }
  have loaded₃ : (load Obj.fatPrivate? fatPrivate).run _ = .ok (_, _) := load_of_obj here₃ rfl
  rw [bind_of_ok loaded₃] at run
  obtain ⟨_, rfl⟩ := store_eq_ok.mp run
  have apart : ∀ {state : Kernel} {stream : Nat} {volume : FatPrivate},
      state.objs fatPrivate = some (.fatPrivate volume) →
      state.objs stream = some (streamAt 0) → stream ≠ fatPrivate :=
    fun private' here => Kernel.ne_of_objs here private' fun same => by cases same
  have second₃ := (added₃.kept _ List.mem_cons_self (apart added₂.changed added₂.stream)).trans
    added₂.stream
  have first₂ := (added₂.kept _ List.mem_cons_self (apart added.changed added.stream)).trans
    added.stream
  have first₃ := (added₃.kept _ (List.mem_cons_of_mem _ List.mem_cons_self)
    (apart added.changed added.stream)).trans first₂
  refine ⟨_, _, added₃.invariant, fun _ member => List.mem_cons_of_mem _ (List.mem_cons_of_mem _
    (List.mem_cons_of_mem _ member)), added₃.changed, fun stream member => ?_, ?_⟩
  · have cases : stream = first ∨ stream = second ∨ stream = third := by
      simpa only [FatPrivate.streams, List.mem_cons, List.not_mem_nil, or_false] using member
    rcases cases with rfl | rfl | rfl
    · exact ⟨first₃, _, List.mem_cons_of_mem _ (List.mem_cons_of_mem _ List.mem_cons_self), rfl⟩
    · exact ⟨second₃, _, List.mem_cons_of_mem _ List.mem_cons_self, rfl⟩
    · exact ⟨added₃.stream, _, List.mem_cons_self, rfl⟩
  · have start : kernel.SameGlobals (kernel.setObj fatPrivate (some (.fatPrivate {}))) := rfl
    exact ((start.trans added.globals).trans added₂.globals).trans added₃.globals

end Streams

/-- The header in the first bytes of the disk. -/
def bootHeader (drive : Nat → UInt8) : FatHeader := FatHeader.decode (window drive 0 sizeofFatH)

/-- The volume is mounted with the header of the disk, and its root directory is in the heap. -/
structure HeaderMounted (region : KernelRegion) (live : List Allocation) (volume : FatPrivate)
    (drive : Nat → UInt8) (kernel : Kernel) : Prop where
  header : volume.header = bootHeader drive
  invariant : KernelInvariant region live kernel
  root : RootLive live volume kernel
  dataAfterRoot : 0 ≤ volume.rootDirectory.endingSectorPos

section Resolve

variable {region : KernelRegion} {live : List Allocation} {kernel next : Kernel}
  {volume : FatPrivate} {fatPrivate stream : Nat}

/-- **The header and the root directory** of a volume that is resolved. -/
theorem fat16ResolveHeader_mounted (inv : KernelInvariant region live kernel)
    (mounted : VolumeLive live volume kernel)
    (sectorSize : kernel.disk.sectorSize = peachosSectorSize)
    (opened : kernel.objs stream = some (streamAt 0))
    (held : ∃ allocation ∈ live, allocation.ptr = stream)
    (run : (fat16ResolveHeader diskstreamerRead kernel.disk.fsPrivate stream).run kernel =
      .ok (0, next)) :
    (bootHeader kernel.drive).signature = 0x29 ∧
      (1 ≤ (bootHeader kernel.drive).rootDirEntries → ∃ live' volume',
        HeaderMounted region live' volume' kernel.drive next ∧ next.disk = kernel.disk ∧
          volume'.streams = volume.streams ∧ volume'.rootDirectory.item ≠ stream) := by
  obtain ⟨streamed, done, only⟩ := diskstreamerRead_delivers.run opened
    (show SectorRequest 0 sizeofFatH by unfold SectorRequest sizeofFatH; omega)
  have inv' := only.invariant inv
  have mounted' := mounted.grown (only.toGrown inv)
  have present := mounted'.fsPrivate
  rw [only.disk] at present
  have loaded : (load Obj.fatPrivate? kernel.disk.fsPrivate).run streamed = .ok (_, streamed) :=
    load_of_obj present rfl
  have done' : (diskstreamerRead stream sizeofFatH).run kernel = .ok (_, streamed) := done
  rw [fat16ResolveHeader, bind_of_ok done'] at run
  dsimp only at run
  rw [bind_of_ok loaded, show FatHeader.decode (window kernel.drive 0 sizeofFatH) =
    bootHeader kernel.drive from rfl] at run
  obtain ⟨there, run⟩ := store_bind_eq_ok.mp run
  rw [if_neg (not_not.mpr rfl)] at run
  split at run
  · cases run
  next signature =>
  refine ⟨not_not.mp signature, fun nonempty => ?_⟩
  obtain ⟨res, built, root, run⟩ := bind_eq_ok.mp run
  have success : res = 0 ∧ next = built := by
    split at run
    · cases run
    next success =>
      cases run
      exact ⟨not_not.mp success, rfl⟩
  obtain ⟨rfl, rfl⟩ := success
  have written := @VolumeLive.setPrivate _ _ _ mounted'
    { volume with header := bootHeader kernel.drive } rfl
  have inv'' := inv'.setObj there
    (.fatPrivate { volume with header := bootHeader kernel.drive })
  rw [only.disk] at written
  obtain ⟨titled, title⟩ : ∃ titled, titled = streamed.setObj kernel.disk.fsPrivate
    (some (.fatPrivate { volume with header := bootHeader kernel.drive })) := ⟨_, rfl⟩
  rw [← title] at written inv'' root
  have disk : titled.disk = kernel.disk := by
    rw [title]
    exact only.disk
  have root' := root
  rw [← disk] at root'
  obtain ⟨live', items, counted, dir, contents, _, rooted, disk'⟩ := fat16GetRootDirectory_loads
    diskstreamerRead_readsStreams inv'' written (by rw [disk]; exact sectorSize)
    (FatHeader.decode_rootHeader rfl) nonempty root'
  have streamLive : StreamLive region kernel.disk.fsPrivate stream titled := by
    have different : stream ≠ kernel.disk.fsPrivate :=
      Kernel.ne_of_objs opened mounted.fsPrivate fun same => by cases same
    obtain ⟨value, positioned, _⟩ := OnDisk.of_onlyStreams ⟨_, opened, rfl⟩ only
    rw [title] at inv'' ⊢
    exact ⟨⟨live, inv'', mounted.privateHeld, held⟩,
      ⟨_, Kernel.setObj_objs_self .., FatHeader.decode_fields _⟩,
      value, (Kernel.setObj_objs_of_ne _ _ different).trans positioned⟩
  obtain ⟨⟨_, _, value, stays⟩, _⟩ :=
    fat16GetRootDirectory_streamLive diskstreamerRead_readsStreams _ _ _ streamLive root
  refine ⟨live', FatPrivate.withRoot { volume with header := bootHeader kernel.drive } dir items,
    ⟨rfl, rooted.invariant, ⟨rooted.mounted, ⟨_, rooted.buffer⟩, rooted.held⟩,
      Int.natCast_nonneg _⟩, disk'.trans disk, rfl, ?_⟩
  exact Kernel.ne_of_objs rooted.buffer stays fun same => by cases same

/-- The codes of `fat16_resolve`. -/
theorem fat16Resolve_nonpos : Ensures (fun _ : Kernel => True) (fat16Resolve diskstreamerRead)
    fun res => res ≤ 0 := by
  have any : ∀ {α : Type} {program : K α}, Ensures (fun _ : Kernel => True) program fun _ => True :=
    fun _ _ _ _ _ => ⟨trivial, trivial⟩
  have header : ∀ fatPrivate stream, Ensures (fun _ : Kernel => True)
      (fat16ResolveHeader diskstreamerRead fatPrivate stream) fun res => res ≤ 0 := by
    refine fun fatPrivate stream => .bind any fun _ _ => .bind any fun _ _ => .bind any fun _ _ => ?_
    refine .ite (fun _ => .pure (by decide)) fun _ => .ite (fun _ => .pure (by decide)) fun _ => ?_
    exact .bind any fun _ _ => .ite (fun _ => .pure (by decide)) fun _ => .pure le_rfl
  have opened : ∀ fatPrivate stream, Ensures (fun _ : Kernel => True) (do
      if stream = 0 then pure (-enomem)
      else do
        let res ← fat16ResolveHeader diskstreamerRead fatPrivate stream
        diskstreamerClose stream
        pure res : K Int) fun res => res ≤ 0 := fun fatPrivate stream =>
    .ite (fun _ => .pure (by decide)) fun _ => .bind (header _ _) fun _ small =>
      .bind any fun _ _ => .pure small
  refine .bind any fun fatPrivate _ => .bind any fun _ _ => .bind any fun _ _ => .bind any fun _ _ =>
    .bind any fun stream _ => .bind (opened fatPrivate stream) fun res small => ?_
  exact .ite (fun _ => .bind any fun _ _ => .bind any fun _ _ => .pure small) fun _ => .pure small

/-- **A disk that is resolved** is mounted. -/
theorem fat16Resolve_mounted (inv : KernelInvariant region live kernel)
    (id : kernel.disk.id = 0) (sectorSize : kernel.disk.sectorSize = peachosSectorSize)
    (run : (fat16Resolve diskstreamerRead).run kernel = .ok (0, next)) :
    (bootHeader kernel.drive).signature = 0x29 ∧
      (1 ≤ (bootHeader kernel.drive).rootDirEntries → ∃ live' volume,
        HeaderMounted region live' volume kernel.drive next ∧
          next.disk.sectorSize = peachosSectorSize ∧
          next.disk.filesystem = some .fat16) := by
  obtain ⟨fatPrivate, allocated, requested, run⟩ := bind_eq_ok.mp run
  obtain ⟨_, ready, init, run⟩ := bind_eq_ok.mp run
  have placed := kmalloc_used inv (by decide) (by decide) requested (fat16InitPrivate_present init)
  have sameDisk : allocated.disk = kernel.disk := by rw [placed.globals]
  obtain ⟨live', volume, made⟩ := fat16InitPrivate_completed placed.invariant
    ⟨_, List.mem_cons_self, rfl⟩ (by rw [sameDisk]; exact id) init
  have readyDisk : ready.disk = kernel.disk := by rw [made.globals, sameDisk]
  have readyDrive : ready.drive = kernel.drive := by
    rw [made.globals]
    change allocated.drive = _
    rw [placed.globals]
  rw [bind_of_ok (run_update _ _), bind_of_ok (run_read _ _)] at run
  obtain ⟨attached, attach⟩ : ∃ attached : Kernel, attached = { ready with
      disk := { ready.disk with fsPrivate := fatPrivate, filesystem := some .fat16 } } := ⟨_, rfl⟩
  rw [← attach] at run
  have inv' : KernelInvariant region live' attached := attach ▸ made.invariant.of_same rfl rfl
  have mounted : VolumeLive live' volume attached := by
    rw [attach]
    exact ⟨made.present, fun stream member => ⟨_, (made.streams stream member).1, rfl⟩,
      ⟨_, made.grown List.mem_cons_self, rfl⟩, fun stream member => (made.streams stream member).2⟩
  obtain ⟨stream, opened, new, run⟩ := bind_eq_ok.mp run
  have attachedId : attached.disk.id = 0 := by
    rw [attach]
    exact (congrArg Disk.id readyDisk).trans id
  rw [attachedId] at new
  have placed' := diskstreamerNew_completed inv' new
  have mounted' := mounted.grown ((Grown.refl inv').placed placed')
  have openedDisk : opened.disk = attached.disk := by rw [placed'.globals]
  have openedDrive : opened.drive = kernel.drive := by
    rw [placed'.globals]
    change attached.drive = _
    rw [attach]
    exact readyDrive
  have attachedDisk : attached.disk =
      { kernel.disk with fsPrivate := fatPrivate, filesystem := some .fat16 } := by
    rw [attach, ← readyDisk]
  obtain ⟨res, closed, body, run⟩ := bind_eq_ok.mp run
  obtain ⟨rfl, rfl⟩ : res = 0 ∧ next = closed := by
    split at run
    · obtain ⟨_, _, _, run⟩ := bind_eq_ok.mp run
      obtain ⟨_, _, _, run⟩ := bind_eq_ok.mp run
      cases run
      omega
    · cases run
      exact ⟨rfl, rfl⟩
  rw [if_neg placed'.notNull] at body
  obtain ⟨res, loaded, resolved, body⟩ := bind_eq_ok.mp body
  obtain ⟨_, freed, free, body⟩ := bind_eq_ok.mp body
  cases body
  have named : opened.disk.fsPrivate = fatPrivate := by rw [openedDisk, attachedDisk]
  rw [← named] at resolved
  obtain ⟨signature, mounts⟩ := fat16ResolveHeader_mounted placed'.invariant mounted'
    (by rw [openedDisk, attachedDisk]; exact sectorSize) placed'.present ⟨_, List.mem_cons_self, rfl⟩
    resolved
  rw [openedDrive] at signature mounts
  refine ⟨signature, fun nonempty => ?_⟩
  obtain ⟨live'', volume', headed, disk, streams, different⟩ := mounts nonempty
  obtain ⟨heap, free', inv''⟩ := kfree_spec headed.invariant (kfree_eq_ok free)
  have freed' : (kfree stream).run loaded = .ok (_, _) := free
  rw [free'] at freed'
  cases freed'
  have notPrivate : loaded.disk.fsPrivate ≠ stream := by
    rw [disk, named]
    exact placed'.fresh ⟨fatPrivate, _⟩ (made.grown List.mem_cons_self)
  have notStream : ∀ other ∈ volume'.streams, other ≠ stream := by
    rw [streams]
    intro other member
    obtain ⟨allocation, old, same⟩ := mounted.streamsHeld other member
    exact same ▸ placed'.fresh allocation old
  obtain ⟨contents, buffer⟩ := headed.root.buffer
  obtain ⟨home, inHome, homeHere⟩ := headed.root.held
  refine ⟨_, volume', ⟨headed.header, inv'', ⟨headed.root.volumeLive.free notPrivate notStream heap,
    ⟨contents, (Kernel.setObj_objs_of_ne _ _ different).trans buffer⟩, home,
    List.mem_filter.mpr ⟨inHome, decide_eq_true (homeHere ▸ different)⟩, homeHere⟩,
    headed.dataAfterRoot⟩, ?_⟩
  rw [Kernel.setObj_disk]
  change loaded.disk.sectorSize = _ ∧ loaded.disk.filesystem = _
  rw [disk, openedDisk, attachedDisk]
  exact ⟨sectorSize, rfl⟩

/-- A failed resolve leaves no private structure. -/
theorem fat16Resolve_detached {read : StreamRead} {res : Int}
    (run : (fat16Resolve read).run kernel = .ok (res, next)) (failed : res < 0) :
    next.disk.fsPrivate = 0 := by
  obtain ⟨_, _, _, run⟩ := bind_eq_ok.mp run
  obtain ⟨_, _, _, run⟩ := bind_eq_ok.mp run
  obtain ⟨_, _, _, run⟩ := bind_eq_ok.mp run
  obtain ⟨_, _, _, run⟩ := bind_eq_ok.mp run
  obtain ⟨_, _, _, run⟩ := bind_eq_ok.mp run
  obtain ⟨found, _, _, run⟩ := bind_eq_ok.mp run
  split at run
  · obtain ⟨_, _, _, run⟩ := bind_eq_ok.mp run
    rw [bind_of_ok (run_update _ _)] at run
    cases run
    rfl
  next positive =>
    cases run
    exact absurd failed positive

/-- Free slots of the registry are skipped. -/
theorem fsResolveLoop_free (read : StreamRead) (count : Nat) : ∀ index,
    (∀ j, index ≤ j → j < index + count → kernel.filesystems[j]? = some none) →
    (fsResolveLoop read count index).run kernel = .ok (none, kernel) := by
  induction count with
  | zero => exact fun _ _ => rfl
  | succ count ih =>
      intro index free
      have slot : (readFilesystems index).run kernel = .ok (none, kernel) :=
        demand_of_some (free index le_rfl (by omega))
      rw [fsResolveLoop, bind_of_ok slot]
      exact ih (index + 1) fun j after before => free j (by omega) (by omega)

/-- With the registry of `fs_init`, FAT16 is asked once. -/
theorem fsResolve_boot (read : StreamRead) (reads : ReadsStreams read)
    (registry : kernel.filesystems = bootFilesystems) {res : Int}
    (run : (fat16Resolve read).run kernel = .ok (res, next)) :
    (fsResolve read).run kernel = .ok (if res = 0 then some .fat16 else none, next) := by
  have slot : (readFilesystems 0).run kernel = .ok (some .fat16, kernel) :=
    demand_of_some (by rw [registry]; rfl)
  have same : next.filesystems = bootFilesystems := by
    have tables := (fat16Resolve_sameTables reads kernel res next
      (show kernel.SameTables kernel from rfl) run).1
    unfold Kernel.SameTables at tables
    rw [tables]
    exact registry
  have free : (fsResolveLoop read 11 1).run next = .ok (none, next) := by
    refine fsResolveLoop_free read 11 1 fun j after before => ?_
    rw [same]
    have below : j < 12 := before
    interval_cases j <;> rfl
  rw [fsResolve, show peachosMaxFilesystems = 11 + 1 from rfl, fsResolveLoop, bind_of_ok slot]
  dsimp only
  rw [bind_of_ok run]
  by_cases success : res = 0
  · rw [if_pos success, if_pos success, run_pure]
  · rw [if_neg success, if_neg success, free]

/-- Without a filesystem nothing is opened. -/
theorem fopen_unmounted {read : StreamRead} (inv : KernelInvariant region live kernel)
    (unmounted : kernel.disk.filesystem = none) {filename modeStr : List UInt8} {fd : Int}
    (run : (fopen read filename modeStr).run kernel = .ok (fd, next)) : fd = 0 := by
  obtain ⟨outcome, last, before, rest⟩ := bind_eq_ok.mp run
  by_cases failed : outcome.res < 0
  · rw [if_pos failed] at rest
    exact fopenCleanUp_completed rest
  refine absurd ?_ failed
  obtain ⟨rootPath, parsed, parse, outcome'⟩ := bind_eq_ok.mp before
  rcases pathparserParse_completed inv parse with ⟨rfl, _⟩ | ⟨notNull, _, drive, _, names, _, live',
    ptrs, extended, parsedPath⟩
  · rw [if_pos rfl] at outcome'
    cases outcome'
    exact show -einvagr < 0 by decide
  rw [if_neg notNull] at outcome'
  obtain ⟨_, root, _, _, outcome'⟩ := load_bind_eq_ok.mp outcome'
  split at outcome'
  · cases outcome'
    exact show -einvagr < 0 by decide
  split at outcome'
  · cases outcome'
    exact show -eio < 0 by decide
  have disk : parsed.disk.filesystem = none := by
    rw [extended.globals]
    exact unmounted
  rw [bind_of_ok (run_read _ _), if_pos disk] at outcome'
  cases outcome'
  exact show -eio < 0 by decide

/-- The disk after a boot that completed. -/
inductive BootOutcome (region : KernelRegion) (drive : Nat → UInt8) (next : Kernel) : Prop
  | unmounted {live : List Allocation} (filesystem : next.disk.filesystem = none)
      (detached : next.disk.fsPrivate = 0) (invariant : KernelInvariant region live next)
  | mounted (filesystem : next.disk.filesystem = some .fat16)
      (signature : (bootHeader drive).signature = 0x29)
      (ready : 1 ≤ (bootHeader drive).rootDirEntries → ∃ live volume,
        volume.header = bootHeader drive ∧ VolumeBounded volume next ∧
          FileTable region live volume next [])

/-- **Booting from any disk.** After `fs_init` and `disk_search_and_init` FAT16 alone is registered,
no file is open, and the disk has no filesystem, so that nothing can be opened, or it has the
signature and is mounted: then what the calls on files rely on holds. -/
theorem mountDisk_ready (inv : KernelInvariant region live kernel)
    (run : (mountDisk diskstreamerRead).run kernel = .ok ((), next)) :
    next.filesystems = bootFilesystems ∧ next.drive = kernel.drive ∧
      next.fileDescriptors = List.replicate peachosMaxFileDescriptors 0 ∧
      BootOutcome region kernel.drive next ∧
      (next.disk.filesystem = none → ∀ filename modeStr fd last,
        (fopen diskstreamerRead filename modeStr).run next = .ok (fd, last) → fd = 0) := by
  rw [mountDisk, bind_of_ok (fsInit_run kernel), diskSearchAndInit, bind_of_ok (run_update _ _),
    bind_of_ok (run_update _ _)] at run
  obtain ⟨searched, search⟩ : ∃ searched : Kernel, searched = { kernel with
      fileDescriptors := List.replicate peachosMaxFileDescriptors 0
      filesystems := bootFilesystems
      disk := {} } := ⟨_, rfl⟩
  have inv' : KernelInvariant region live searched := search ▸ inv.of_same rfl rfl
  obtain ⟨found, resolved, resolve, done⟩ := bind_eq_ok.mp run
  cases done
  have resolve' : (fsResolve diskstreamerRead).run searched = .ok (found, resolved) := by
    rw [search]
    exact resolve
  obtain ⟨res, asked⟩ : ∃ res, (fat16Resolve diskstreamerRead).run searched =
      .ok (res, resolved) ∧ found = if res = 0 then some .fat16 else none := by
    have slot : (readFilesystems 0).run searched = .ok (some .fat16, searched) :=
      demand_of_some (by rw [search]; rfl)
    have parts := resolve'
    rw [fsResolve, show peachosMaxFilesystems = 11 + 1 from rfl, fsResolveLoop,
      bind_of_ok slot] at parts
    obtain ⟨res, next, asked, _⟩ := bind_eq_ok.mp parts
    have whole := fsResolve_boot diskstreamerRead diskstreamerRead_readsStreams
      (by rw [search]) asked
    rw [resolve'] at whole
    cases whole
    exact ⟨res, asked, rfl⟩
  obtain ⟨asked, known⟩ := asked
  have tables := (fat16Resolve_sameTables diskstreamerRead_readsStreams searched res resolved
    (show searched.SameTables searched from rfl) asked).1
  have filesystems : resolved.filesystems = bootFilesystems := by
    rw [tables, search]
  have drive : resolved.drive = kernel.drive := by
    rw [tables, search]
  have empty : resolved.fileDescriptors = List.replicate peachosMaxFileDescriptors 0 := by
    rw [tables, search]
  have outcome : BootOutcome region kernel.drive
      { resolved with disk := { resolved.disk with filesystem := found } } := by
    by_cases success : res = 0
    · subst success
      rw [if_pos rfl] at known
      subst known
      obtain ⟨signature, mounts⟩ :=
        fat16Resolve_mounted inv' (by rw [search]) (by rw [search]) asked
      rw [show searched.drive = kernel.drive by rw [search]] at signature mounts
      refine .mounted rfl signature fun nonempty => ?_
      obtain ⟨live', volume, headed, sectorSize, filesystem⟩ := mounts nonempty
      have disk : { resolved.disk with filesystem := some .fat16 } = resolved.disk := by
        rw [← filesystem]
      have fields := FatHeader.decode_fields (window kernel.drive 0 sizeofFatH)
      have header : volume.header = FatHeader.decode (window kernel.drive 0 sizeofFatH) :=
        headed.header
      refine ⟨live', volume, headed.header, ⟨sectorSize, header ▸ fields.reservedSectors,
        header ▸ fields.sectorsPerCluster, headed.dataAfterRoot⟩, ?_⟩
      exact fileTable_empty (headed.invariant.of_same rfl rfl) (headed.root.of_same rfl disk) rfl
        empty
    · rw [if_neg success] at known
      subst known
      have failed : res < 0 := lt_of_le_of_ne
        (fat16Resolve_nonpos searched res resolved trivial asked).2 success
      obtain ⟨live', _, inv'', _⟩ := fat16Resolve_keepsStream diskstreamerRead_readsStreams inv'
        (by rw [search]) asked failed
      have detached := fat16Resolve_detached asked failed
      exact .unmounted rfl detached (inv''.of_same rfl rfl)
  refine ⟨filesystems, drive, empty, outcome, fun unmounted filename modeStr fd last opening => ?_⟩
  cases outcome with
  | unmounted _ _ inv'' => exact fopen_unmounted inv'' unmounted opening
  | mounted filesystem _ _ =>
      rw [unmounted] at filesystem
      cases filesystem

/-- The boot is a call of `fat16_resolve` with the registry and the disk structure set up. -/
theorem mountDisk_of_resolve {res : Int} {resolved : Kernel}
    (run : (fat16Resolve diskstreamerRead).run { kernel with
      fileDescriptors := List.replicate peachosMaxFileDescriptors 0
      filesystems := bootFilesystems
      disk := {} } = .ok (res, resolved)) :
    (mountDisk diskstreamerRead).run kernel = .ok ((), { resolved with
      disk := { resolved.disk with filesystem := if res = 0 then some .fat16 else none } }) := by
  rw [mountDisk, bind_of_ok (fsInit_run kernel), diskSearchAndInit, bind_of_ok (run_update _ _),
    bind_of_ok (run_update _ _)]
  have resolves := fsResolve_boot diskstreamerRead diskstreamerRead_readsStreams rfl run
  exact (bind_of_ok resolves).trans (run_update _ _)

/-- The boot completes where there is room in the heap, and takes the blocks of the root directory
and five others at most. -/
theorem mountDisk_runs {lower upper : Nat} (inv : KernelInvariant region live kernel)
    (room : kernel.heap.Room lower upper)
    {entries : List (List UInt8)}
    (root : (bootHeader kernel.drive).signature = 0x29 →
      RootStored { header := bootHeader kernel.drive } kernel.drive entries)
    (enough : lower + 5 + blocksFor (FatPrivate.rootSize { header := bootHeader kernel.drive }) ≤
      upper) :
    ∃ live' next, (mountDisk diskstreamerRead).run kernel = .ok ((), next) ∧
      (next.disk.filesystem = some .fat16 ↔ (bootHeader kernel.drive).signature = 0x29) ∧
      KernelInvariant region live' next ∧ next.heap.Room (lower + 5 +
        blocksFor (FatPrivate.rootSize { header := bootHeader kernel.drive })) upper ∧
      next = { kernel with
        heap := next.heap, objs := next.objs, disk := next.disk,
        filesystems := next.filesystems, fileDescriptors := next.fileDescriptors } := by
  obtain ⟨started, start⟩ : ∃ started : Kernel, started = { kernel with
      fileDescriptors := List.replicate peachosMaxFileDescriptors 0
      filesystems := bootFilesystems
      disk := {} } := ⟨_, rfl⟩
  have inv' : KernelInvariant region live started := start ▸ inv.of_same rfl rfl
  have room' : started.heap.Room lower upper := start ▸ room
  have drive : started.drive = kernel.drive := by rw [start]
  rw [← drive] at root enough ⊢
  by_cases signature : (bootHeader started.drive).signature = 0x29
  · obtain ⟨live', next, volume, run, loaded, header, _, after, globals⟩ := fat16Resolve_loads inv'
      room' (by rw [start]) (by rw [start]) signature (root signature) enough
    rw [start] at run globals
    rw [FatPrivate.rootSize_of_header (show volume.header =
      FatPrivate.header { header := bootHeader started.drive } from header)] at after
    exact ⟨live', _, mountDisk_of_resolve run, iff_of_true rfl signature,
      loaded.invariant.of_same rfl rfl, after, by rw [drive, globals]⟩
  · obtain ⟨live', next, run, inv'', after, globals⟩ :=
      fat16Resolve_rejected inv' room' (by omega) (by rw [start]) signature
    rw [start] at run globals
    refine ⟨live', _, mountDisk_of_resolve run, iff_of_false ?_ signature, inv''.of_same rfl rfl,
      ⟨after.inside, fun block above => after.free block (by omega)⟩, by rw [drive, globals]⟩
    rw [if_neg (by decide)]
    nofun

/-- **Which disks are mounted.** With room in the heap the boot completes, and the disk has FAT16 as
its filesystem if and only if its first sector has the signature, for every disk whose root
directory ends. -/
theorem mountDisk_mounts_iff {lower upper : Nat} (inv : KernelInvariant region live kernel)
    (room : kernel.heap.Room lower upper)
    {entries : List (List UInt8)}
    (root : (bootHeader kernel.drive).signature = 0x29 →
      RootStored { header := bootHeader kernel.drive } kernel.drive entries)
    (enough : lower + 5 + blocksFor (FatPrivate.rootSize { header := bootHeader kernel.drive }) ≤
      upper) :
    ∃ next, (mountDisk diskstreamerRead).run kernel = .ok ((), next) ∧
      (next.disk.filesystem = some .fat16 ↔ (bootHeader kernel.drive).signature = 0x29) := by
  obtain ⟨_, next, run, mounts, _⟩ := mountDisk_runs inv room root enough
  exact ⟨next, run, mounts⟩

end Resolve

theorem tableKernel_root : RootStored { header := bootHeader tableKernel.drive } tableKernel.drive [
    69 :: List.replicate 10 0 ++ [0x10] ++ List.replicate 14 0 ++ [2] ++ List.replicate 5 0,
    68 :: List.replicate 10 0 ++ [0x10] ++ List.replicate 14 0 ++ [3] ++ List.replicate 5 0,
    70 :: List.replicate 25 0 ++ [4] ++ List.replicate 5 0] where
  stored := by decide
  nonempty := by decide
  counted := by decide
  placed := by decide

/-- The image with the directories `E` and `D` and the file `F` is mounted. -/
theorem mountDisk_mounts_tableKernel : ∃ next,
    (mountDisk diskstreamerRead).run tableKernel = .ok ((), next) ∧
      (next.disk.filesystem = some .fat16 ↔ (bootHeader tableKernel.drive).signature = 0x29) :=
  mountDisk_mounts_iff ((freshKernel_invariant wideHeapRegion).of_same rfl rfl)
    (show tableKernel.heap.Room 0 64 from ⟨by decide, by decide⟩) (fun _ => tableKernel_root)
    (by decide)

/-- After the boot from that image its table of open files is empty. -/
theorem mountDisk_ready_tableKernel : ∃ next live volume,
    (mountDisk diskstreamerRead).run tableKernel = .ok ((), next) ∧
      VolumeBounded volume next ∧ FileTable wideHeapRegion live volume next [] := by
  have inv : KernelInvariant wideHeapRegion [] tableKernel :=
    (freshKernel_invariant wideHeapRegion).of_same rfl rfl
  obtain ⟨_, next, _, run, _⟩ := @fat16Resolve_loads wideHeapRegion [] { tableKernel with
    fileDescriptors := List.replicate peachosMaxFileDescriptors 0
    filesystems := bootFilesystems
    disk := {} } 0 64 (inv.of_same rfl rfl) ⟨by decide, by decide⟩ rfl rfl (by decide) _
      tableKernel_root (by decide)
  have booted := mountDisk_of_resolve run
  obtain ⟨_, _, _, outcome, _⟩ := mountDisk_ready inv booted
  cases outcome with
  | unmounted filesystem _ _ => cases filesystem
  | mounted _ _ ready =>
      obtain ⟨live, volume, _, bounded, table⟩ := ready (by decide)
      exact ⟨_, live, volume, booted, bounded, table⟩

end Peachos
