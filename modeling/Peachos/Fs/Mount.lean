import Peachos.Fs.RootDirectory
import Peachos.Kernel.Boot
import Peachos.Kernel.Room

/-! # Mounting a volume

`fat16_resolve` allocates the private structure with its streams, reads the header and loads the
root directory. On a heap with room it succeeds for every disk with a FAT16 header and a root
directory that ends inside its region.
-/

namespace Peachos

open CInt Window

section Streams

variable {region : KernelRegion} {live live' : List Allocation} {kernel next : Kernel}
  {lower upper ptr : Nat} {contents : Obj}

/-- The contents of a new block can be replaced. -/
theorem Placed.write (placed : Placed region live live' kernel contents ptr next) (after : Obj) :
    Placed region live live' kernel after ptr (next.setObj ptr (some after)) where
  notNull := placed.notNull
  invariant := placed.invariant.setObj (by rw [placed.present]; rfl) after
  grown := placed.grown
  fresh := placed.fresh
  present := Kernel.setObj_objs_self ..
  kept := fun allocation member =>
    (Kernel.setObj_objs_of_ne _ _ (placed.fresh allocation member)).trans
      (placed.kept allocation member)
  old := by
    intro other found different present
    rw [Kernel.setObj_objs_of_ne _ _ different] at present
    exact placed.old other found different present
  globals := placed.globals.trans rfl

theorem diskstreamerNew_run (inv : KernelInvariant region live kernel)
    (room : kernel.heap.Room lower upper) (enough : lower + 1 ≤ upper) :
    ∃ stream next, (diskstreamerNew 0).run kernel = .ok (stream, next) ∧
      Placed region live (⟨stream, 8⟩ :: live) kernel (streamAt 0) stream next ∧
      next.heap.Room (lower + 1) upper := by
  obtain ⟨stream, next, run, placed, room'⟩ :=
    @kmalloc_room live lower upper region kernel inv room 8 (by decide) (by decide) enough
      (.diskStream {})
  have first := placed.write (.diskStream {})
  refine ⟨stream, _, ?_, first.write (streamAt 0), room'⟩
  have loaded : (load Obj.diskStream? stream).run next = .ok ({}, next) :=
    load_of_obj placed.present rfl
  have reloaded : (load Obj.diskStream? stream).run (next.setObj stream (some (.diskStream {}))) =
      .ok ({}, _) := load_of_obj first.present rfl
  rw [diskstreamerNew, if_neg (by decide)]
  unfold kzalloc
  rw [Exec.bind_of_ok run, Exec.bind_of_ok loaded,
    Exec.bind_of_ok (store_of_live (by rw [placed.present]; rfl)), Exec.bind_of_ok reloaded,
    Exec.bind_of_ok (store_of_live (by rw [first.present]; rfl)), Exec.run_pure]
  rfl

/-- A new stream whose pointer goes to the private structure. -/
structure StreamAdded (region : KernelRegion) (live : List Allocation) (kernel next : Kernel)
    (fatPrivate : Nat) (value : FatPrivate) (stream : Nat) : Prop where
  invariant : KernelInvariant region (⟨stream, 8⟩ :: live) next
  changed : next.objs fatPrivate = some (.fatPrivate value)
  stream : next.objs stream = some (streamAt 0)
  kept : ∀ allocation ∈ live, allocation.ptr ≠ fatPrivate →
    next.objs allocation.ptr = kernel.objs allocation.ptr
  globals : kernel.SameGlobals next

theorem streamAdded_run (inv : KernelInvariant region live kernel)
    (room : kernel.heap.Room lower upper) (enough : lower + 1 ≤ upper) {fatPrivate : Nat}
    {value : FatPrivate} (present : kernel.objs fatPrivate = some (.fatPrivate value))
    (held : ∃ allocation ∈ live, allocation.ptr = fatPrivate)
    (change : Nat → FatPrivate) :
    ∃ stream middle, (diskstreamerNew 0).run kernel = .ok (stream, middle) ∧
      (load Obj.fatPrivate? fatPrivate).run middle = .ok (value, middle) ∧
      (store fatPrivate (.fatPrivate (change stream))).run middle =
        .ok ((), middle.setObj fatPrivate (some (.fatPrivate (change stream)))) ∧
      StreamAdded region live kernel
        (middle.setObj fatPrivate (some (.fatPrivate (change stream)))) fatPrivate
        (change stream) stream ∧ middle.heap.Room (lower + 1) upper := by
  obtain ⟨stream, middle, run, placed, room'⟩ := diskstreamerNew_run inv room enough
  obtain ⟨home, member, rfl⟩ := held
  have here : middle.objs home.ptr = some (.fatPrivate value) :=
    (placed.kept home member).trans present
  have there : (middle.objs home.ptr).isSome := by
    rw [here]
    rfl
  refine ⟨stream, middle, run, load_of_obj here rfl, store_of_live there, ⟨?_, ?_, ?_, ?_, ?_⟩,
    room'⟩
  · exact placed.invariant.setObj there _
  · exact Kernel.setObj_objs_self ..
  · rw [Kernel.setObj_objs_of_ne _ _ (placed.fresh home member).symm, placed.present]
  · intro allocation old different
    rw [Kernel.setObj_objs_of_ne _ _ different, placed.kept allocation old]
  · exact placed.globals.trans rfl

/-- **The private structure with its three streams.** -/
theorem fat16InitPrivate_run (inv : KernelInvariant region live kernel)
    (room : kernel.heap.Room lower upper) (enough : lower + 3 ≤ upper) {fatPrivate : Nat}
    {value : FatPrivate} (present : kernel.objs fatPrivate = some (.fatPrivate value))
    (held : ∃ allocation ∈ live, allocation.ptr = fatPrivate) (id : kernel.disk.id = 0) :
    ∃ live' next volume, (fat16InitPrivate fatPrivate).run kernel = .ok ((), next) ∧
      KernelInvariant region live' next ∧ live ⊆ live' ∧
      next.objs fatPrivate = some (.fatPrivate volume) ∧ volume.header = {} ∧
      (∀ stream ∈ volume.streams, next.objs stream = some (streamAt 0) ∧
        ∃ allocation ∈ live', allocation.ptr = stream) ∧
      (∀ allocation ∈ live, allocation.ptr ≠ fatPrivate →
        next.objs allocation.ptr = kernel.objs allocation.ptr) ∧
      next.heap.Room (lower + 3) upper ∧ kernel.SameGlobals next := by
  have there : (kernel.objs fatPrivate).isSome := by
    rw [present]
    rfl
  obtain ⟨first, middle₁, new₁, load₁, store₁, added₁, room₁⟩ :=
    streamAdded_run (inv.setObj there (.fatPrivate {})) room (show lower + 1 ≤ upper by omega)
      (Kernel.setObj_objs_self ..) held fun stream => { clusterReadStream := stream }
  have grow : ∀ {stream : Nat} {live : List Allocation},
      (∃ allocation ∈ live, allocation.ptr = fatPrivate) →
        ∃ allocation ∈ (⟨stream, 8⟩ :: live : List Allocation), allocation.ptr = fatPrivate :=
    fun ⟨allocation, member, same⟩ => ⟨allocation, List.mem_cons_of_mem _ member, same⟩
  obtain ⟨second, middle₂, new₂, load₂, store₂, added₂, room₂⟩ :=
    streamAdded_run added₁.invariant room₁ (show lower + 1 + 1 ≤ upper by omega) added₁.changed
      (grow held) fun stream => { clusterReadStream := first, fatReadStream := stream }
  obtain ⟨third, middle₃, new₃, load₃, store₃, added₃, room₃⟩ :=
    streamAdded_run added₂.invariant room₂ (show lower + 1 + 1 + 1 ≤ upper by omega)
      added₂.changed (grow (grow held)) fun stream =>
        { clusterReadStream := first, fatReadStream := second, directoryStream := stream }
  have apart : ∀ {state : Kernel} {stream : Nat} {volume : FatPrivate},
      state.objs fatPrivate = some (.fatPrivate volume) →
      state.objs stream = some (streamAt 0) → stream ≠ fatPrivate :=
    fun private' here => Kernel.ne_of_objs here private' nofun
  have second₃ := (added₃.kept _ List.mem_cons_self (apart added₂.changed added₂.stream)).trans
    added₂.stream
  have first₂ := (added₂.kept _ List.mem_cons_self (apart added₁.changed added₁.stream)).trans
    added₁.stream
  have first₃ := (added₃.kept _ (List.mem_cons_of_mem _ List.mem_cons_self)
    (apart added₁.changed added₁.stream)).trans first₂
  refine ⟨_, _, _, ?_, added₃.invariant, ?_, added₃.changed, rfl, ?_, ?_, room₃, ?_⟩
  · rw [fat16InitPrivate, Exec.bind_of_ok (Exec.run_read _ _),
      Exec.bind_of_ok (store_of_live there), id]
    rw [Exec.bind_of_ok new₁, Exec.bind_of_ok load₁, Exec.bind_of_ok store₁, Exec.bind_of_ok new₂,
      Exec.bind_of_ok load₂, Exec.bind_of_ok store₂, Exec.bind_of_ok new₃, Exec.bind_of_ok load₃]
    exact store₃
  · exact fun _ member => List.mem_cons_of_mem _ (List.mem_cons_of_mem _
      (List.mem_cons_of_mem _ member))
  · intro stream member
    have cases : stream = first ∨ stream = second ∨ stream = third := by
      simpa only [FatPrivate.streams, List.mem_cons, List.not_mem_nil, or_false] using member
    rcases cases with rfl | rfl | rfl
    · exact ⟨first₃, _, List.mem_cons_of_mem _ (List.mem_cons_of_mem _ List.mem_cons_self), rfl⟩
    · exact ⟨second₃, _, List.mem_cons_of_mem _ List.mem_cons_self, rfl⟩
    · exact ⟨added₃.stream, _, List.mem_cons_self, rfl⟩
  · intro allocation member different
    rw [added₃.kept _ (List.mem_cons_of_mem _ (List.mem_cons_of_mem _ member)) different,
      added₂.kept _ (List.mem_cons_of_mem _ member) different, added₁.kept _ member different,
      Kernel.setObj_objs_of_ne _ _ different]
  · have start : kernel.SameGlobals (kernel.setObj fatPrivate (some (.fatPrivate {}))) := rfl
    exact ((start.trans added₁.globals).trans added₂.globals).trans added₃.globals

end Streams

/-- The volume is mounted: its private structure, its streams and its root directory are live,
and the root directory has the given entries. -/
structure VolumeReady (region : KernelRegion) (live : List Allocation) (volume : FatPrivate)
    (kernel : Kernel) (entries : List (List UInt8)) : Prop where
  invariant : KernelInvariant region live kernel
  mounted : VolumeLive live volume kernel
  root : RootOnDisk volume kernel.drive entries
  rootDirectory : volume.rootDirectory =
    (volume.withRoot volume.rootDirectory.item (liveCount entries)).rootDirectory
  buffer : kernel.objs volume.rootDirectory.item =
    some (.bytes (window kernel.drive (volume.rootSector * 512) volume.rootSize))
  held : ∃ allocation ∈ live, allocation.ptr = volume.rootDirectory.item
  filesystem : kernel.disk.filesystem = some .fat16
  sectorSize : kernel.disk.sectorSize = peachosSectorSize

/-- The volume is mounted, with the given entries in its root directory, which may go on behind
its region. -/
structure VolumeLoaded (region : KernelRegion) (live : List Allocation) (volume : FatPrivate)
    (kernel : Kernel) (entries : List (List UInt8)) : Prop where
  invariant : KernelInvariant region live kernel
  mounted : VolumeLive live volume kernel
  root : RootStored volume kernel.drive entries
  rootDirectory : volume.rootDirectory =
    (volume.withRoot volume.rootDirectory.item (liveCount entries)).rootDirectory
  buffer : kernel.objs volume.rootDirectory.item =
    some (.bytes (window kernel.drive (volume.rootSector * 512) volume.rootSize))
  held : ∃ allocation ∈ live, allocation.ptr = volume.rootDirectory.item
  filesystem : kernel.disk.filesystem = some .fat16
  sectorSize : kernel.disk.sectorSize = peachosSectorSize

section Resolve

variable {region : KernelRegion} {live : List Allocation} {kernel : Kernel} {lower upper : Nat}

theorem VolumeLive.free {volume : FatPrivate} (mounted : VolumeLive live volume kernel)
    {ptr : Nat} (notPrivate : kernel.disk.fsPrivate ≠ ptr)
    (notStream : ∀ stream ∈ volume.streams, stream ≠ ptr) (heap : Heap) :
    VolumeLive (live.filter fun allocation => allocation.ptr ≠ ptr) volume
      ({ kernel with heap := heap }.setObj ptr none) where
  fsPrivate := (Kernel.setObj_objs_of_ne _ _ notPrivate).trans mounted.fsPrivate
  onDisk := by
    intro stream member
    obtain ⟨value, present, disk⟩ := mounted.onDisk stream member
    exact ⟨value, (Kernel.setObj_objs_of_ne _ _ (notStream stream member)).trans present, disk⟩
  privateHeld := by
    obtain ⟨allocation, member, same⟩ := mounted.privateHeld
    exact ⟨allocation, List.mem_filter.mpr ⟨member, decide_eq_true (same ▸ notPrivate)⟩, same⟩
  streamsHeld := by
    intro stream member
    obtain ⟨allocation, present, same⟩ := mounted.streamsHeld stream member
    exact ⟨allocation, List.mem_filter.mpr
      ⟨present, decide_eq_true (same ▸ notStream stream member)⟩, same⟩

/-- **Mounting.** With room in the heap, `fat16_resolve` mounts every disk that starts with a
FAT16 header and has a root directory that ends, also when it ends behind its region. -/
theorem fat16Resolve_loads (inv : KernelInvariant region live kernel)
    (room : kernel.heap.Room lower upper) (id : kernel.disk.id = 0)
    (sectorSize : kernel.disk.sectorSize = peachosSectorSize)
    (signature : (FatHeader.decode (window kernel.drive 0 sizeofFatH)).signature = 0x29)
    {entries : List (List UInt8)}
    (root : RootStored { header := FatHeader.decode (window kernel.drive 0 sizeofFatH) }
      kernel.drive entries)
    (enough : lower + 5 + blocksFor (FatPrivate.rootSize
      { header := FatHeader.decode (window kernel.drive 0 sizeofFatH) }) ≤ upper) :
    ∃ live' next volume, (fat16Resolve diskstreamerRead).run kernel = .ok (0, next) ∧
      VolumeLoaded region live' volume next entries ∧
      volume.header = FatHeader.decode (window kernel.drive 0 sizeofFatH) ∧
      live ⊆ live' ∧ next.heap.Room (lower + 5 + blocksFor volume.rootSize) upper ∧
      next = { kernel with heap := next.heap, objs := next.objs, disk := next.disk } := by
  generalize headerEq : FatHeader.decode (window kernel.drive 0 sizeofFatH) = header at *
  obtain ⟨p, allocated, request, placed, room₁⟩ := @kmalloc_room live lower upper region kernel inv
    room sizeofFatPrivate (by decide) (by decide) (show lower + 1 ≤ upper by omega)
    (.fatPrivate {})
  have sameDisk : allocated.disk = kernel.disk := by rw [placed.globals]
  obtain ⟨live₂, ready, volume, init, inv₂, grown₂, present₂, noHeader, streams₂, kept₂, room₂,
    globals₂⟩ := fat16InitPrivate_run placed.invariant room₁
      (show lower + 1 + 3 ≤ upper by omega) placed.present ⟨_, List.mem_cons_self, rfl⟩
      (by rw [sameDisk]; exact id)
  have readyDisk : ready.disk = kernel.disk := by rw [globals₂, sameDisk]
  obtain ⟨attached, attach⟩ : ∃ attached : Kernel, attached = { ready with
      disk := { ready.disk with fsPrivate := p, filesystem := some .fat16 } } := ⟨_, rfl⟩
  have inv₂' : KernelInvariant region live₂ attached := by
    rw [attach]
    exact inv₂.of_same rfl rfl
  have mounted₂ : VolumeLive live₂ volume attached := by
    rw [attach]
    refine ⟨present₂, fun stream member => ?_, ?_, fun stream member => (streams₂ stream member).2⟩
    · exact ⟨_, (streams₂ stream member).1, rfl⟩
    · exact ⟨_, grown₂ List.mem_cons_self, rfl⟩
  have room₂' : attached.heap.Room (lower + 1 + 3) upper := by
    rw [attach]
    exact room₂
  obtain ⟨t, opened, new, placed₃, room₃⟩ := diskstreamerNew_run inv₂' room₂' (by omega)
  have grown₃ := (Grown.refl inv₂').placed placed₃
  obtain ⟨streamed, done, only⟩ := diskstreamerRead_delivers.run placed₃.present
    (show SectorRequest 0 sizeofFatH by unfold SectorRequest sizeofFatH; omega)
  have grown₄ := grown₃.streams only
  have mounted₄ := mounted₂.grown grown₄
  have drive₃ : opened.drive = kernel.drive := by
    rw [grown₃.drive, attach]
    change ready.drive = _
    rw [globals₂]
    change allocated.drive = _
    rw [placed.globals]
  have disk₄ : streamed.disk = { kernel.disk with fsPrivate := p, filesystem := some .fat16 } := by
    rw [grown₄.disk, attach, ← readyDisk]
  have present₄ : streamed.objs p = some (.fatPrivate volume) := by
    have present := mounted₄.fsPrivate
    rwa [disk₄] at present
  have loaded₄ : (load Obj.fatPrivate? p).run streamed = .ok (volume, streamed) :=
    load_of_obj present₄ rfl
  have there₄ : (streamed.objs p).isSome := by
    rw [present₄]
    rfl
  obtain ⟨titled, title⟩ : ∃ titled, titled = streamed.setObj p
    (some (.fatPrivate { volume with header := header })) := ⟨_, rfl⟩
  have inv₅ : KernelInvariant region (⟨t, 8⟩ :: live₂) titled := by
    rw [title]
    exact grown₄.invariant.setObj there₄ _
  have mounted₅ : VolumeLive (⟨t, 8⟩ :: live₂) { volume with header := header } titled := by
    have written := @VolumeLive.setPrivate _ _ _ mounted₄ { volume with header := header } rfl
    rw [disk₄] at written
    rwa [title]
  have drive₅ : titled.drive = kernel.drive := by
    rw [title, Kernel.setObj_drive, only.drive, drive₃]
  have disk₅ : titled.disk = { kernel.disk with fsPrivate := p, filesystem := some .fat16 } := by
    rw [title, Kernel.setObj_disk, disk₄]
  have sectorSize₅ : titled.disk.sectorSize = peachosSectorSize := by
    rw [disk₅]
    exact sectorSize
  have root₅ : RootStored { volume with header := header } titled.drive entries := by
    rw [drive₅]
    exact root.of_header rfl
  have bound := root₅.placed
  have nonempty := root₅.nonempty
  have size : FatPrivate.rootSize { volume with header := header } =
    sizeofFatDirectoryItem * header.rootDirEntries := rfl
  unfold sizeofFatDirectoryItem at size
  obtain ⟨counted, count, only₅⟩ := fat16GetTotalItemsForDirectory_run diskstreamerRead_delivers
    itemRequests_sectorRequest mounted₅ sectorSize₅ root₅.stored root₅.counted
  have room₅ : counted.heap.Room (lower + 1 + 3 + 1) upper := by
    rw [only₅.heap, title, Kernel.setObj_heap, only.heap]
    exact room₃
  obtain ⟨dir, allocated₆, request₆, placed₆, room₆⟩ := kmalloc_room (only₅.invariant inv₅) room₅
    (show 1 ≤ FatPrivate.rootSize { volume with header := header } by
      dsimp only at nonempty
      omega) (by omega)
    (show lower + 1 + 3 + 1 + blocksFor (FatPrivate.rootSize { volume with header := header }) ≤
      upper from enough) (.bytes (List.replicate _ 0))
  obtain ⟨loaded, load, built⟩ := fat16GetRootDirectory_of_placed diskstreamerRead_delivers inv₅
    (show SectorRequest _ _ by
      unfold SectorRequest
      dsimp only at nonempty
      omega) mounted₅ sectorSize₅ root₅ count only₅ request₆ placed₆
  have held₇ : (loaded.objs t).isSome :=
    built.invariant.held ⟨t, 8⟩ (List.mem_cons_of_mem _ List.mem_cons_self)
  obtain ⟨heap, close, inv₈⟩ := kfree_spec built.invariant held₇
  have fsPrivate₇ : loaded.disk.fsPrivate = p := by
    rw [built.globals]
    change titled.disk.fsPrivate = p
    rw [disk₅]
  have loadedDrive : loaded.drive = titled.drive := by rw [built.globals]
  have loadedDisk : loaded.disk = titled.disk := by rw [built.globals]
  have notDir : dir ≠ t := (placed₆.fresh ⟨t, 8⟩ List.mem_cons_self).symm
  have mounted₈ := built.mounted.free (fsPrivate₇ ▸ placed₃.fresh ⟨p, sizeofFatPrivate⟩
    (grown₂ List.mem_cons_self)) (fun stream member => by
      obtain ⟨allocation, old, same⟩ := mounted₂.streamsHeld stream member
      exact same ▸ placed₃.fresh allocation old) heap
  have fsPrivate₅ : titled.disk.fsPrivate = p := by rw [disk₅]
  rw [fsPrivate₅] at load
  have headed : (fat16ResolveHeader diskstreamerRead p t).run opened = .ok (0, loaded) := by
    rw [fat16ResolveHeader]
    refine (Exec.bind_of_ok done).trans ?_
    dsimp only
    rw [Exec.bind_of_ok loaded₄, drive₃, headerEq, Exec.bind_of_ok (store_of_live there₄), ← title,
      if_neg (not_not.mpr rfl), if_neg (not_not.mpr signature), Exec.bind_of_ok load,
      if_neg (not_not.mpr rfl), Exec.run_pure]
  have attachedId : attached.disk.id = 0 := by
    rw [attach]
    exact (congrArg Disk.id readyDisk).trans id
  have closed : (do
      if t = 0 then pure (-enomem)
      else do
        let res ← fat16ResolveHeader diskstreamerRead p t
        diskstreamerClose t
        pure res : K Int).run opened = .ok (0, { loaded with heap := heap }.setObj t none) := by
    rw [if_neg placed₃.notNull, Exec.bind_of_ok headed, diskstreamerClose, Exec.bind_of_ok close,
      Exec.run_pure]
  refine ⟨_, _, _, ?_, ⟨inv₈, mounted₈, ?_, rfl, ?_, ?_, ?_, ?_⟩, rfl, ?_, ?_, ?_⟩
  · unfold fat16Resolve kzalloc
    rw [Exec.bind_of_ok request, Exec.bind_of_ok init, Exec.bind_of_ok (Exec.run_update _ _), ← attach,
      Exec.bind_of_ok (Exec.run_read _ _), attachedId, Exec.bind_of_ok new,
      Exec.bind_of_ok closed, if_neg (by decide), Exec.run_pure]
  · change RootStored _ loaded.drive entries
    rw [loadedDrive]
    exact root₅.of_header rfl
  · change _ = some (Obj.bytes (window loaded.drive _ _))
    rw [loadedDrive]
    exact (Kernel.setObj_objs_of_ne _ _ notDir).trans built.buffer
  · exact ⟨⟨dir, _⟩, List.mem_filter.mpr ⟨List.mem_cons_self, decide_eq_true notDir⟩, rfl⟩
  · change loaded.disk.filesystem = _
    rw [loadedDisk, disk₅]
  · change loaded.disk.sectorSize = _
    rw [loadedDisk, sectorSize₅]
  · intro allocation member
    have different : allocation.ptr ≠ t :=
      placed₃.fresh allocation (grown₂ (List.mem_cons_of_mem _ member))
    exact List.mem_filter.mpr ⟨List.mem_cons_of_mem _ (List.mem_cons_of_mem _
      (grown₂ (List.mem_cons_of_mem _ member))), decide_eq_true different⟩
  · exact room₆.of_fewer placed₆.invariant.heap inv₈.heap fun _ member =>
      (List.mem_filter.mp member).1
  · have attached' : attached.SameGlobals ({ loaded with heap := heap }.setObj t none) := by
      have titled' : attached.SameGlobals titled := by
        rw [title]
        exact grown₄.globals.trans rfl
      exact (titled'.trans built.globals).trans rfl
    have ready' := placed.globals.trans globals₂
    generalize { loaded with heap := heap }.setObj t none = last at attached' ⊢
    unfold Kernel.SameGlobals at attached' ready'
    rw [attached', attach, ready']

/-- **Mounting** a disk with a root directory that ends inside its region. -/
theorem fat16Resolve_run (inv : KernelInvariant region live kernel)
    (room : kernel.heap.Room lower upper) (id : kernel.disk.id = 0)
    (sectorSize : kernel.disk.sectorSize = peachosSectorSize)
    (signature : (FatHeader.decode (window kernel.drive 0 sizeofFatH)).signature = 0x29)
    {entries : List (List UInt8)}
    (root : RootOnDisk { header := FatHeader.decode (window kernel.drive 0 sizeofFatH) }
      kernel.drive entries)
    (enough : lower + 5 + blocksFor (FatPrivate.rootSize
      { header := FatHeader.decode (window kernel.drive 0 sizeofFatH) }) ≤ upper) :
    ∃ live' next volume, (fat16Resolve diskstreamerRead).run kernel = .ok (0, next) ∧
      VolumeReady region live' volume next entries ∧
      volume.header = FatHeader.decode (window kernel.drive 0 sizeofFatH) ∧
      live ⊆ live' ∧ next.heap.Room (lower + 5 + blocksFor volume.rootSize) upper ∧
      next = { kernel with heap := next.heap, objs := next.objs, disk := next.disk } := by
  obtain ⟨live', next, volume, run, loaded, same, grown, room', globals⟩ :=
    fat16Resolve_loads inv room id sectorSize signature root.toStored enough
  refine ⟨live', next, volume, run, ⟨loaded.invariant, loaded.mounted, ?_, loaded.rootDirectory,
    loaded.buffer, loaded.held, loaded.filesystem, loaded.sectorSize⟩, same, grown, room', globals⟩
  have drive : next.drive = kernel.drive := by rw [globals]
  rw [drive]
  exact root.of_header same

/-- On a mounted volume the root directory can be loaded again. -/
theorem VolumeReady.reload {volume : FatPrivate} {entries : List (List UInt8)}
    (ready : VolumeReady region live volume kernel entries) (room : kernel.heap.Room lower upper)
    (enough : lower + blocksFor volume.rootSize ≤ upper) :
    ∃ live' next dir, (fat16GetRootDirectory diskstreamerRead kernel.disk.fsPrivate).run kernel =
      .ok (0, next) ∧ RootBuilt region live' volume kernel next entries dir := by
  have bound := ready.root.placed
  have ends := ready.root.ends
  have size : volume.rootSize = sizeofFatDirectoryItem * volume.header.rootDirEntries := rfl
  unfold sizeofFatDirectoryItem at size
  obtain ⟨counted, count, only⟩ := fat16GetTotalItemsForDirectory_run diskstreamerRead_delivers
    itemRequests_sectorRequest ready.mounted ready.sectorSize ready.root.stored (by
      unfold sizeofFatDirectoryItem
      omega)
  obtain ⟨dir, allocated, request, placed, _⟩ := kmalloc_room (only.invariant ready.invariant)
    (by rw [only.heap]; exact room) (by omega) (by omega) enough (.bytes (List.replicate _ 0))
  obtain ⟨next, run, built⟩ := fat16GetRootDirectory_of_placed diskstreamerRead_delivers
    ready.invariant (show SectorRequest _ _ by unfold SectorRequest; omega) ready.mounted
    ready.sectorSize ready.root.toStored count only request placed
  exact ⟨_, next, dir, run, built⟩

end Resolve

/-- A disk by its bytes that are not zero. -/
def imageOf (bytes : List (Nat × UInt8)) (pos : Nat) : UInt8 := (bytes.lookup pos).getD 0

/-- The header of a volume with one sector a cluster, one table of one sector behind the boot
sector, and a root directory of one sector at byte 1024. Cluster 2 is at byte 1536. -/
def smallHeader : List (Nat × UInt8) :=
  [(13, 1), (14, 1), (16, 1), (17, 16), (22, 1), (38, 0x29)]

/-- The kernel after `kheap_init`, with a disk. -/
def bootWithDisk (bytes : List (Nat × UInt8)) : Kernel :=
  { bootKernel with drive := imageOf (smallHeader ++ bytes) }

theorem bootWithDisk_room (bytes : List (Nat × UInt8)) :
    (bootWithDisk bytes).heap.Room 0 25600 := by
  have packed := freshKernel_packed kernelHeapRegion
  have total : (freshKernel kernelHeapRegion).heap.table.total = 25600 :=
    (freshKernel_total _).trans rfl
  exact ⟨total.ge, fun block _ before => (packed.free block (by omega)).mpr (Nat.zero_le _)⟩

/-- Mounting a small volume on the kernel after `kheap_init`. -/
theorem fat16Resolve_boot (bytes : List (Nat × UInt8)) {entries : List (List UInt8)}
    (header : FatHeader.decode (window (imageOf (smallHeader ++ bytes)) 0 sizeofFatH) =
      FatHeader.decode (window (imageOf smallHeader) 0 sizeofFatH))
    (root : DirectoryAt (imageOf (smallHeader ++ bytes)) 1024 entries)
    (ends : entries.length < 16) :
    ∃ live next volume, (fat16Resolve diskstreamerRead).run (bootWithDisk bytes) = .ok (0, next) ∧
      VolumeReady kernelHeapRegion live volume next entries ∧
      volume.header = FatHeader.decode (window (imageOf smallHeader) 0 sizeofFatH) ∧
      next.heap.Room 6 25600 ∧ next = { bootWithDisk bytes with
        heap := next.heap, objs := next.objs, disk := next.disk } := by
  have header' : FatHeader.decode (window (bootWithDisk bytes).drive 0 sizeofFatH) = _ := header
  have inv : KernelInvariant kernelHeapRegion [] (bootWithDisk bytes) :=
    (freshKernel_invariant kernelHeapRegion).of_same rfl rfl
  obtain ⟨live, next, volume, run, ready, same, _, room, globals⟩ :=
    @fat16Resolve_run kernelHeapRegion [] (bootWithDisk bytes) 0 25600 inv (bootWithDisk_room bytes)
      rfl rfl (by rw [header']; decide) entries (by
        rw [header']
        exact ⟨root, ends, by decide⟩) (by rw [header']; decide)
  refine ⟨live, next, volume, run, ready, same.trans header', ?_, globals⟩
  have size : volume.rootSize = 512 := by
    unfold FatPrivate.rootSize
    rw [same, header']
    decide
  rw [size] at room
  exact room

end Peachos
