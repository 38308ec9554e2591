import Peachos.Fs.Layout
import Peachos.Fs.OpenError

/-! # What a failed mount leaves behind

`fat16_resolve` frees its private structure when it fails, but not the three streams that the
structure names, and it leaves the disk with `fat16_fs` as its filesystem. So a failure is only
undone where there was nothing to undo: `resolveUndone_iff`.
-/

namespace Peachos

open CInt Window

/-- A failed `fat16_resolve` from `kernel` to `next` has undone what it did. -/
structure ResolveUndone (region : KernelRegion) (live : List Allocation) (kernel next : Kernel) :
    Prop where
  filesystem : next.disk.filesystem = kernel.disk.filesystem
  fsPrivate : next.disk.fsPrivate = kernel.disk.fsPrivate
  freed : SameLive region live next

/-- No disk has the identifier, so no stream is made, and the disk looked as a failure leaves it. -/
def NothingToUndo (disk : Disk) : Prop :=
  disk.id ≠ 0 ∧ disk.filesystem = some .fat16 ∧ disk.fsPrivate = 0

/-- The private structure and one of its streams are live. -/
structure StreamLive (region : KernelRegion) (fatPrivate stream : Nat) (kernel : Kernel) : Prop where
  live : ∃ live, KernelInvariant region live kernel ∧
    (∃ allocation ∈ live, allocation.ptr = fatPrivate) ∧ ∃ allocation ∈ live, allocation.ptr = stream
  fatPrivate : ∃ volume, kernel.objs fatPrivate = some (.fatPrivate volume) ∧
    HeaderFields volume.header
  stream : ∃ value, kernel.objs stream = some (.diskStream value)

section Live

variable {region : KernelRegion} {fatPrivate stream : Nat} {kernel next : Kernel}

theorem StreamLive.ne (here : StreamLive region fatPrivate stream kernel) : stream ≠ fatPrivate := by
  obtain ⟨_, there⟩ := here.stream
  obtain ⟨_, there', _⟩ := here.fatPrivate
  exact Kernel.ne_of_objs there there' nofun

/-- Moving streams keeps them live. -/
theorem StreamLive.streams (here : StreamLive region fatPrivate stream kernel)
    (only : OnlyStreams kernel next) : StreamLive region fatPrivate stream next where
  live := by
    obtain ⟨live, inv, held, held'⟩ := here.live
    exact ⟨live, only.invariant inv, held, held'⟩
  fatPrivate := by
    obtain ⟨volume, there, fields⟩ := here.fatPrivate
    exact ⟨volume, only.kept there rfl, fields⟩
  stream := by
    obtain ⟨value, there⟩ := here.stream
    rcases only.moved stream with same | ⟨_, after, _, stopped, _⟩
    · exact ⟨value, same.trans there⟩
    · exact ⟨after, stopped⟩

/-- So does writing another object. -/
theorem StreamLive.setOther (here : StreamLive region fatPrivate stream kernel) {ptr : Nat}
    (present : (kernel.objs ptr).isSome) (notPrivate : ptr ≠ fatPrivate) (notStream : ptr ≠ stream)
    (contents : Obj) : StreamLive region fatPrivate stream (kernel.setObj ptr (some contents)) where
  live := by
    obtain ⟨live, inv, held, held'⟩ := here.live
    exact ⟨live, inv.setObj present contents, held, held'⟩
  fatPrivate := by
    rw [Kernel.setObj_objs_of_ne _ _ notPrivate.symm]
    exact here.fatPrivate
  stream := by
    rw [Kernel.setObj_objs_of_ne _ _ notStream.symm]
    exact here.stream

/-- So does writing the private structure. -/
theorem StreamLive.setPrivate (here : StreamLive region fatPrivate stream kernel)
    {volume : FatPrivate} (fields : HeaderFields volume.header) :
    StreamLive region fatPrivate stream (kernel.setObj fatPrivate (some (.fatPrivate volume))) where
  live := by
    obtain ⟨live, inv, held, held'⟩ := here.live
    obtain ⟨_, there, _⟩ := here.fatPrivate
    exact ⟨live, inv.setObj (by rw [there]; rfl) _, held, held'⟩
  fatPrivate := ⟨volume, Kernel.setObj_objs_self .., fields⟩
  stream := by
    rw [Kernel.setObj_objs_of_ne _ _ here.ne]
    exact here.stream

/-- So does changing the disk. -/
theorem StreamLive.setDisk (here : StreamLive region fatPrivate stream kernel) (disk : Disk) :
    StreamLive region fatPrivate stream { kernel with disk := disk } where
  live := by
    obtain ⟨live, inv, held, held'⟩ := here.live
    exact ⟨live, inv.of_same rfl rfl, held, held'⟩
  fatPrivate := here.fatPrivate
  stream := here.stream

end Live

section Programs

variable {region : KernelRegion} {fatPrivate stream : Nat} {read : StreamRead}

/-- A pointer to neither of them. -/
def Elsewhere (fatPrivate stream ptr : Nat) : Prop := ptr ≠ fatPrivate ∧ ptr ≠ stream

theorem onlyStreams_streamLive {α : Type} {program : K α} {post : α → Prop}
    (only : ∀ start, Exec.Ensures (OnlyStreams start) program post) :
    Exec.Ensures (StreamLive region fatPrivate stream) program post := by
  intro kernel value next here run
  obtain ⟨moved, found⟩ := only kernel kernel value next (.refl kernel) run
  exact ⟨here.streams moved, found⟩

theorem kmalloc_streamLive {size : Nat} (small : size ≤ 4294963200) (contents : Obj) :
    Exec.Ensures (StreamLive region fatPrivate stream) (kmalloc size contents)
      (Elsewhere fatPrivate stream) := by
  intro kernel ptr next here run
  obtain ⟨live, inv, held, held'⟩ := here.live
  obtain ⟨volume, there, fields⟩ := here.fatPrivate
  obtain ⟨value, there'⟩ := here.stream
  have kept : ∀ {live' : List Allocation}, Placed region live live' kernel contents ptr next →
      StreamLive region fatPrivate stream next ∧ Elsewhere fatPrivate stream ptr := by
    rintro live' placed
    obtain ⟨allocation, member, rfl⟩ := held
    obtain ⟨allocation', member', rfl⟩ := held'
    exact ⟨⟨⟨live', placed.invariant, ⟨_, placed.grown member, rfl⟩, _, placed.grown member', rfl⟩,
      ⟨volume, (placed.kept _ member).trans there, fields⟩, value,
      (placed.kept _ member').trans there'⟩, (placed.fresh _ member).symm,
      (placed.fresh _ member').symm⟩
  rcases kmalloc_completed inv small run with ⟨rfl, rfl⟩ | ⟨_, placed⟩ | ⟨_, placed⟩
  · refine ⟨here, ?_, ?_⟩
    · rintro rfl
      rw [inv.null] at there
      cases there
    · rintro rfl
      rw [inv.null] at there'
      cases there'
  · exact kept placed
  · exact kept placed

theorem kfree_streamLive {ptr : Nat} (other : Elsewhere fatPrivate stream ptr) :
    Exec.Ensures (StreamLive region fatPrivate stream) (kfree ptr) fun _ => True := by
  intro kernel done next here run
  obtain ⟨live, inv, ⟨allocation, member, same⟩, allocation', member', same'⟩ := here.live
  obtain ⟨heap, freed, inv'⟩ := kfree_spec inv (kfree_eq_ok run)
  rw [run] at freed
  cases freed
  refine ⟨⟨⟨_, inv', ⟨allocation, ?_, same⟩, allocation', ?_, same'⟩, ?_, ?_⟩, trivial⟩
  · exact List.mem_filter.mpr ⟨member, decide_eq_true (same ▸ other.1.symm)⟩
  · exact List.mem_filter.mpr ⟨member', decide_eq_true (same' ▸ other.2.symm)⟩
  · rw [Kernel.setObj_objs_of_ne _ _ other.1.symm]
    exact here.fatPrivate
  · rw [Kernel.setObj_objs_of_ne _ _ other.2.symm]
    exact here.stream

theorem load_streamLive {α : Type} (view : Obj → Option α) (ptr : Nat) :
    Exec.Ensures (StreamLive region fatPrivate stream) (load view ptr) fun _ => True :=
  .demand fun _ _ _ _ => trivial

theorem loadPrivate_streamLive : Exec.Ensures (StreamLive region fatPrivate stream)
    (load Obj.fatPrivate? fatPrivate) fun volume => HeaderFields volume.header := by
  refine .demand fun kernel volume here present => ?_
  obtain ⟨found, there, fields⟩ := here.fatPrivate
  rw [there] at present
  cases present
  exact fields

theorem storePrivate_streamLive {volume : FatPrivate} (fields : HeaderFields volume.header) :
    Exec.Ensures (StreamLive region fatPrivate stream) (store fatPrivate (.fatPrivate volume))
      fun _ => True := by
  intro kernel done next here run
  obtain ⟨_, rfl⟩ := store_eq_ok.mp run
  exact ⟨here.setPrivate fields, trivial⟩

theorem storeOther_streamLive {ptr : Nat} (other : Elsewhere fatPrivate stream ptr)
    (contents : Obj) : Exec.Ensures (StreamLive region fatPrivate stream) (store ptr contents)
      fun _ => True := by
  intro kernel done next here run
  obtain ⟨present, rfl⟩ := store_eq_ok.mp run
  exact ⟨here.setOther present other.1 other.2 contents, trivial⟩

theorem writeBytes_streamLive {ptr : Nat} (other : Elsewhere fatPrivate stream ptr) (offset : Nat)
    (out : List UInt8) : Exec.Ensures (StreamLive region fatPrivate stream)
      (writeBytes ptr offset out) fun _ => True :=
  .bind (load_streamLive _ _) fun _ _ =>
    .ite (fun _ => storeOther_streamLive other _) fun _ => .fault _

theorem readDisk_streamLive : Exec.Ensures (StreamLive region fatPrivate stream)
    (Exec.read Kernel.disk : K Disk) fun _ => True :=
  .read fun _ _ => trivial

/-- Another stream is another block. -/
theorem diskstreamerNew_streamLive (diskId : Int) :
    Exec.Ensures (StreamLive region fatPrivate stream) (diskstreamerNew diskId)
      fun ptr => ptr = 0 ∨ Elsewhere fatPrivate stream ptr := by
  refine .ite (fun _ => .pure (.inl rfl)) fun _ => ?_
  refine .bind (kmalloc_streamLive (by decide) _) fun ptr other => ?_
  refine .bind (load_streamLive _ _) fun _ _ => ?_
  refine .bind (storeOther_streamLive other _) fun _ _ => ?_
  refine .bind (load_streamLive _ _) fun _ _ => ?_
  exact .bind (storeOther_streamLive other _) fun _ _ => .pure (.inr other)

theorem fat16GetRootDirectory_streamLive (reads : ReadsStreams read) :
    Exec.Ensures (StreamLive region fatPrivate stream) (fat16GetRootDirectory read fatPrivate)
      fun _ => True := by
  refine .bind loadPrivate_streamLive fun volume fields => ?_
  have small : ((volume.header.rootDirEntries : Int) * sizeofFatDirectoryItem).toNat ≤
      4294963200 := by
    have entries := fields.rootDirEntries
    unfold sizeofFatDirectoryItem
    omega
  refine .bind readDisk_streamLive fun disk _ => ?_
  refine .bind (onlyStreams_streamLive fun _ => divide_streams _ _) fun _ _ => ?_
  refine .bind (onlyStreams_streamLive fun _ => remainder_streams _ _) fun _ _ => ?_
  refine .bind (onlyStreams_streamLive fun _ => fat16GetTotalItemsForDirectory_streams reads _)
    fun _ _ => ?_
  refine .bind (kmalloc_streamLive small _) fun dir other => ?_
  refine .ite (fun _ => .pure trivial) fun _ => ?_
  refine .bind (onlyStreams_streamLive fun _ => diskstreamerSeek_streams _ _) fun _ _ => ?_
  have failed : Exec.Ensures (StreamLive region fatPrivate stream) (do
      kfree dir
      pure (-eio) : K Int) fun _ => True :=
    .bind (kfree_streamLive other) fun _ _ => .pure trivial
  refine .ite (fun _ => failed) fun _ => ?_
  refine .bind (onlyStreams_streamLive fun _ => reads.moves _ _ _) fun _ _ => ?_
  refine .bind (writeBytes_streamLive other _ _) fun _ _ => ?_
  refine .ite (fun _ => failed) fun _ => ?_
  refine .bind loadPrivate_streamLive fun volume' fields' => ?_
  exact .bind (storePrivate_streamLive fields') fun _ _ => .pure trivial

theorem fat16ResolveHeader_streamLive (reads : ReadsStreams read) (opened : Nat) :
    Exec.Ensures (StreamLive region fatPrivate stream) (fat16ResolveHeader read fatPrivate opened)
      fun _ => True := by
  refine .bind (onlyStreams_streamLive fun _ => reads.moves _ _ _) fun result _ => ?_
  refine .bind loadPrivate_streamLive fun volume _ => ?_
  refine .bind (storePrivate_streamLive (FatHeader.decode_fields _)) fun _ _ => ?_
  refine .ite (fun _ => .pure trivial) fun _ => .ite (fun _ => .pure trivial) fun _ => ?_
  exact .bind (fat16GetRootDirectory_streamLive reads) fun _ _ =>
    .ite (fun _ => .pure trivial) fun _ => .pure trivial

/-- What `fat16_init_private` does after its first stream. -/
theorem fat16InitStreams_streamLive (diskId : Int) {first : Nat} :
    Exec.Ensures (StreamLive region fatPrivate stream) (do
      let value ← load Obj.fatPrivate? fatPrivate
      store fatPrivate (.fatPrivate { value with clusterReadStream := first })
      let fatReadStream ← diskstreamerNew diskId
      let value ← load Obj.fatPrivate? fatPrivate
      store fatPrivate (.fatPrivate { value with fatReadStream := fatReadStream })
      let directoryStream ← diskstreamerNew diskId
      let value ← load Obj.fatPrivate? fatPrivate
      store fatPrivate (.fatPrivate { value with directoryStream := directoryStream }))
      fun _ => True := by
  refine .bind loadPrivate_streamLive fun _ fields => ?_
  refine .bind (storePrivate_streamLive fields) fun _ _ => ?_
  refine .bind (diskstreamerNew_streamLive _) fun _ _ => ?_
  refine .bind loadPrivate_streamLive fun _ fields => ?_
  refine .bind (storePrivate_streamLive fields) fun _ _ => ?_
  refine .bind (diskstreamerNew_streamLive _) fun _ _ => ?_
  exact .bind loadPrivate_streamLive fun _ fields => storePrivate_streamLive fields

/-- What `fat16_resolve` does with its own stream. -/
theorem fat16ResolveStream_streamLive (reads : ReadsStreams read) {opened : Nat}
    (other : opened = 0 ∨ Elsewhere fatPrivate stream opened) :
    Exec.Ensures (StreamLive region fatPrivate stream) (do
      if opened = 0 then pure (-enomem)
      else do
        let res ← fat16ResolveHeader read fatPrivate opened
        diskstreamerClose opened
        pure res : K Int) fun _ => True := by
  refine .ite (fun _ => .pure trivial) fun notNull => ?_
  refine .bind (fat16ResolveHeader_streamLive reads _) fun res _ => ?_
  exact .bind (kfree_streamLive (other.resolve_left notNull)) fun _ _ => .pure trivial

end Programs

section Resolve

variable {region : KernelRegion} {live : List Allocation} {kernel next : Kernel}
  {read : StreamRead} {res : Int}

/-- A completed `fat16_init_private` had the structure that it fills. -/
theorem fat16InitPrivate_present {fatPrivate : Nat} {done : Unit}
    (run : (fat16InitPrivate fatPrivate).run kernel = .ok (done, next)) :
    (kernel.objs fatPrivate).isSome := by
  obtain ⟨_, _, viewed, stored⟩ := Exec.bind_eq_ok.mp run
  cases viewed
  exact (store_bind_eq_ok.mp stored).1

/-- The first stream of a completed `fat16_init_private` is a new block. -/
theorem fat16InitPrivate_stream (inv : KernelInvariant region live kernel) {fatPrivate : Nat}
    (held : ∃ allocation ∈ live, allocation.ptr = fatPrivate) (id : kernel.disk.id = 0)
    (run : (fat16InitPrivate fatPrivate).run kernel = .ok ((), next)) :
    ∃ stream, (∀ allocation ∈ live, allocation.ptr ≠ stream) ∧
      StreamLive region fatPrivate stream next := by
  obtain ⟨allocation, member, rfl⟩ := held
  rw [fat16InitPrivate, Exec.bind_of_ok (Exec.run_read _ _), id] at run
  obtain ⟨present, run₁⟩ := store_bind_eq_ok.mp run
  have inv' := inv.setObj present (.fatPrivate {})
  obtain ⟨stream, opened, new, rest⟩ := Exec.bind_eq_ok.mp run₁
  rw [diskstreamerNew, if_neg (by decide)] at new
  obtain ⟨ptr, allocated, requested, new₁⟩ := Exec.bind_eq_ok.mp new
  obtain ⟨_, _, here, _, new₂⟩ := load_bind_eq_ok.mp new₁
  have placed := kmalloc_used inv' (by decide) (by decide) requested (by rw [here]; rfl)
  obtain ⟨_, new₃⟩ := store_bind_eq_ok.mp new₂
  obtain ⟨_, _, _, _, new₄⟩ := load_bind_eq_ok.mp new₃
  obtain ⟨written, new₅⟩ := store_bind_eq_ok.mp new₄
  cases new₅
  refine ⟨stream, placed.fresh, (fat16InitStreams_streamLive 0 _ () next ⟨?_, ?_, ?_⟩ rest).1⟩
  · exact ⟨_, ((placed.write _).write _).invariant, ⟨allocation, placed.grown member, rfl⟩, _,
      List.mem_cons_self, rfl⟩
  · refine ⟨_, (((placed.write _).write _).kept allocation member).trans
      (Kernel.setObj_objs_self ..), ?_⟩
    exact ⟨by decide, by decide, by decide, by decide, by decide⟩
  · exact ⟨_, Kernel.setObj_objs_self ..⟩

/-- **The streams stay.** After a failure on the disk one of them is still live. -/
theorem fat16Resolve_keepsStream (reads : ReadsStreams read)
    (inv : KernelInvariant region live kernel) (id : kernel.disk.id = 0)
    (run : (fat16Resolve read).run kernel = .ok (res, next)) (failed : res < 0) :
    ∃ live' stream, KernelInvariant region live' next ∧
      (∃ allocation ∈ live', allocation.ptr = stream) ∧
      ∀ allocation ∈ live, allocation.ptr ≠ stream := by
  obtain ⟨fatPrivate, allocated, requested, run₁⟩ := Exec.bind_eq_ok.mp run
  obtain ⟨_, ready, init, run₂⟩ := Exec.bind_eq_ok.mp run₁
  have placed := kmalloc_used inv (by decide) (by decide) requested (fat16InitPrivate_present init)
  obtain ⟨stream, fresh, here⟩ := fat16InitPrivate_stream placed.invariant
    ⟨_, List.mem_cons_self, rfl⟩ (by rw [placed.globals]; exact id) init
  obtain ⟨_, attached, update, run₃⟩ := Exec.bind_eq_ok.mp run₂
  cases update
  obtain ⟨disk, _, read, run₄⟩ := Exec.bind_eq_ok.mp run₃
  cases read
  obtain ⟨opened, created, new, run₅⟩ := Exec.bind_eq_ok.mp run₄
  obtain ⟨here₁, other⟩ := diskstreamerNew_streamLive _ _ _ _ (here.setDisk _) new
  obtain ⟨found, closed, body, run₆⟩ := Exec.bind_eq_ok.mp run₅
  obtain ⟨here₂, _⟩ := fat16ResolveStream_streamLive reads other _ _ _ here₁ body
  by_cases negative : found < 0
  · rw [if_pos negative] at run₆
    obtain ⟨_, freed, free, run₇⟩ := Exec.bind_eq_ok.mp run₆
    cases run₇
    obtain ⟨live', inv', _, allocation, member, same⟩ := here₂.live
    obtain ⟨heap, free', inv''⟩ := kfree_spec inv' (kfree_eq_ok free)
    rw [free] at free'
    cases free'
    refine ⟨_, stream, inv''.of_same rfl rfl, ⟨allocation, ?_, same⟩, fun old member =>
      fresh old (List.mem_cons_of_mem _ member)⟩
    exact List.mem_filter.mpr ⟨member, decide_eq_true (same ▸ here₂.ne)⟩
  · rw [if_neg negative] at run₆
    cases run₆
    exact absurd failed negative

/-- Without a disk `fat16_init_private` makes no stream. -/
theorem fat16InitPrivate_noDisk (disk : Disk) (id : disk.id ≠ 0) (fatPrivate : Nat) :
    Exec.Ensures (fun kernel => KernelInvariant region live kernel ∧ kernel.disk = disk)
      (fat16InitPrivate fatPrivate) fun _ => True := by
  have stored : ∀ contents, Exec.Ensures (fun kernel => KernelInvariant region live kernel ∧
      kernel.disk = disk) (store fatPrivate contents) fun _ => True := by
    rintro contents kernel done next ⟨inv, same⟩ run
    obtain ⟨present, rfl⟩ := store_eq_ok.mp run
    exact ⟨⟨inv.setObj present _, same⟩, trivial⟩
  have none : diskstreamerNew disk.id = Pure.pure 0 := by
    simp [diskstreamerNew, diskGet, id]
  have readDisk : Exec.Ensures (fun kernel => KernelInvariant region live kernel ∧
      kernel.disk = disk) (Exec.read Kernel.disk : K Disk) fun found => found = disk :=
    .read fun _ holds => holds.2
  refine .bind readDisk fun found same => ?_
  have made : Exec.Ensures (fun kernel => KernelInvariant region live kernel ∧ kernel.disk = disk)
      (diskstreamerNew found.id) fun _ => True := by
    rw [same, none]
    exact .pure trivial
  have loaded : Exec.Ensures (fun kernel => KernelInvariant region live kernel ∧
      kernel.disk = disk) (load Obj.fatPrivate? fatPrivate) fun _ => True :=
    .demand fun _ _ _ _ => trivial
  refine .bind (stored _) fun _ _ => .bind made fun _ _ => ?_
  refine .bind loaded fun _ _ => .bind (stored _) fun _ _ => .bind made fun _ _ => ?_
  refine .bind loaded fun _ _ => .bind (stored _) fun _ _ => .bind made fun _ _ => ?_
  exact .bind loaded fun _ _ => stored _

/-- Without a disk the private structure is all that is allocated. -/
theorem fat16Resolve_noDisk (inv : KernelInvariant region live kernel) (id : kernel.disk.id ≠ 0)
    (run : (fat16Resolve read).run kernel = .ok (res, next)) :
    next.disk.filesystem = some .fat16 ∧ next.disk.fsPrivate = 0 ∧ SameLive region live next := by
  obtain ⟨fatPrivate, allocated, requested, run₁⟩ := Exec.bind_eq_ok.mp run
  obtain ⟨_, ready, init, run₂⟩ := Exec.bind_eq_ok.mp run₁
  have placed := kmalloc_used inv (by decide) (by decide) requested (fat16InitPrivate_present init)
  have disk : allocated.disk = kernel.disk := by rw [placed.globals]
  obtain ⟨⟨inv', disk'⟩, _⟩ := fat16InitPrivate_noDisk kernel.disk id fatPrivate allocated () ready
    ⟨placed.invariant, disk⟩ init
  have none : diskstreamerNew ready.disk.id = Pure.pure 0 := by
    simp [diskstreamerNew, diskGet, disk', id]
  rw [Exec.bind_of_ok (Exec.run_update _ _), Exec.bind_of_ok (Exec.run_read _ _), none,
    Exec.bind_of_ok (Exec.run_pure _ _), if_pos rfl, Exec.bind_of_ok (Exec.run_pure _ _),
    if_pos (by decide)] at run₂
  obtain ⟨_, freed, free, run₃⟩ := Exec.bind_eq_ok.mp run₂
  cases run₃
  have attached : KernelInvariant region (⟨fatPrivate, sizeofFatPrivate⟩ :: live) { ready with
      disk := { ready.disk with fsPrivate := fatPrivate, filesystem := some .fat16 } } :=
    inv'.of_same rfl rfl
  obtain ⟨heap, free', inv''⟩ := kfree_spec attached (kfree_eq_ok free)
  rw [free] at free'
  cases free'
  refine ⟨rfl, rfl, _, inv''.of_same rfl rfl, fun allocation => ?_⟩
  rw [List.mem_filter, decide_eq_true_iff, List.mem_cons]
  constructor
  · rintro ⟨rfl | old, different⟩
    · exact absurd rfl different
    · exact old
  · exact fun old => ⟨.inr old, placed.fresh allocation old⟩

/-- **When a failed mount is undone.** -/
theorem resolveUndone_iff (inv : KernelInvariant region live kernel)
    (run : (fat16Resolve diskstreamerRead).run kernel = .ok (res, next)) (failed : res < 0) :
    ResolveUndone region live kernel next ↔ NothingToUndo kernel.disk := by
  by_cases id : kernel.disk.id = 0
  · refine iff_of_false ?_ fun nothing => nothing.1 id
    rintro ⟨_, _, live'', inv'', members⟩
    obtain ⟨live', stream, inv', held, fresh⟩ :=
      fat16Resolve_keepsStream diskstreamerRead_readsStreams inv id run failed
    obtain ⟨allocation, member, same⟩ := inv'.live_iff inv'' held
    exact fresh allocation ((members allocation).mp member) same
  · obtain ⟨filesystem, fsPrivate, freed⟩ := fat16Resolve_noDisk inv id run
    constructor
    · rintro ⟨sameFilesystem, samePrivate, _⟩
      exact ⟨id, sameFilesystem.symm.trans filesystem, samePrivate.symm.trans fsPrivate⟩
    · rintro ⟨_, sameFilesystem, samePrivate⟩
      exact ⟨filesystem.trans sameFilesystem.symm, fsPrivate.trans samePrivate.symm, freed⟩

/-- A disk that does not start with a FAT16 header is rejected. It takes five blocks of the room. -/
theorem fat16Resolve_rejected {lower upper : Nat} (inv : KernelInvariant region live kernel)
    (room : kernel.heap.Room lower upper) (enough : lower + 5 ≤ upper) (id : kernel.disk.id = 0)
    (signature : (FatHeader.decode (window kernel.drive 0 sizeofFatH)).signature ≠ 0x29) :
    ∃ live' next, (fat16Resolve diskstreamerRead).run kernel = .ok (-efsnotus, next) ∧
      KernelInvariant region live' next ∧ next.heap.Room (lower + 5) upper ∧
      next = { kernel with heap := next.heap, objs := next.objs, disk := next.disk } := by
  obtain ⟨p, allocated, request, placed, room₁⟩ := @kmalloc_room live lower upper region kernel inv
    room sizeofFatPrivate (by decide) (by decide) (show lower + 1 ≤ upper by omega)
    (.fatPrivate {})
  obtain ⟨live₂, ready, volume, init, inv₂, grown₂, present₂, _, _, _, room₂, globals₂⟩ :=
    fat16InitPrivate_run placed.invariant room₁ (show lower + 1 + 3 ≤ upper by omega)
      placed.present ⟨_, List.mem_cons_self, rfl⟩ (by rw [placed.globals]; exact id)
  obtain ⟨attached, attach⟩ : ∃ attached : Kernel, attached = { ready with
      disk := { ready.disk with fsPrivate := p, filesystem := some .fat16 } } := ⟨_, rfl⟩
  have inv₂' : KernelInvariant region live₂ attached := attach ▸ inv₂.of_same rfl rfl
  have room₂' : attached.heap.Room (lower + 1 + 3) upper := attach ▸ room₂
  have member : (⟨p, sizeofFatPrivate⟩ : Allocation) ∈ live₂ := grown₂ List.mem_cons_self
  have drive : attached.drive = kernel.drive := by
    rw [attach]
    change ready.drive = _
    rw [globals₂, placed.globals]
  have attachedId : attached.disk.id = 0 := by
    rw [attach]
    change ready.disk.id = 0
    rw [globals₂, placed.globals]
    exact id
  obtain ⟨t, opened, new, placed₃, room₃⟩ := diskstreamerNew_run inv₂' room₂' (by omega)
  have openedDrive : opened.drive = kernel.drive := by
    rw [placed₃.globals]
    exact drive
  obtain ⟨streamed, done, only⟩ := diskstreamerRead_delivers.run placed₃.present
    (show SectorRequest 0 sizeofFatH by unfold SectorRequest sizeofFatH; omega)
  rw [openedDrive] at done
  have present₃ : opened.objs p = some (.fatPrivate volume) := by
    rw [placed₃.kept _ member, attach]
    exact present₂
  have present₄ := only.kept present₃ rfl
  have loaded : (load Obj.fatPrivate? p).run streamed = .ok (volume, streamed) :=
    load_of_obj present₄ rfl
  have there : (streamed.objs p).isSome := by simp [present₄]
  obtain ⟨titled, title⟩ : ∃ titled, titled = streamed.setObj p (some (.fatPrivate
    { volume with header := FatHeader.decode (window kernel.drive 0 sizeofFatH) })) := ⟨_, rfl⟩
  have inv₅ : KernelInvariant region (⟨t, 8⟩ :: live₂) titled :=
    title ▸ (only.invariant placed₃.invariant).setObj there _
  have headed : (fat16ResolveHeader diskstreamerRead p t).run opened = .ok (-efsnotus, titled) := by
    rw [fat16ResolveHeader]
    refine (Exec.bind_of_ok done).trans ?_
    dsimp only
    rw [Exec.bind_of_ok loaded, Exec.bind_of_ok (store_of_live there), ← title,
      if_neg (not_not.mpr rfl), if_pos signature, Exec.run_pure]
  obtain ⟨heap, close, inv₆⟩ := kfree_spec inv₅ (inv₅.held ⟨t, 8⟩ List.mem_cons_self)
  have privateLive := inv₆.held ⟨p, sizeofFatPrivate⟩ (List.mem_filter.mpr
    ⟨List.mem_cons_of_mem _ member, decide_eq_true (placed₃.fresh _ member)⟩)
  obtain ⟨heap', free, inv₇⟩ := kfree_spec inv₆ privateLive
  have room₅ : titled.heap.Room (lower + 5) upper := by
    rw [title, Kernel.setObj_heap, only.heap]
    exact room₃
  have room₆ : heap.Room (lower + 5) upper :=
    room₅.of_fewer inv₅.heap inv₆.heap (List.filter_subset_self _)
  have room₇ : heap'.Room (lower + 5) upper :=
    room₆.of_fewer inv₆.heap inv₇.heap (List.filter_subset_self _)
  obtain ⟨freed, last⟩ : ∃ freed, freed =
    { ({ titled with heap := heap }.setObj t none) with heap := heap' }.setObj p none := ⟨_, rfl⟩
  rw [← last] at free inv₇
  have globals : freed = { kernel with
      heap := freed.heap, objs := freed.objs, disk := freed.disk } := by
    have attached' : attached.SameGlobals freed := by
      have titled' : opened.SameGlobals titled := by
        rw [title]
        exact ((Grown.refl placed₃.invariant).streams only).globals.trans rfl
      rw [last]
      exact (placed₃.globals.trans titled').trans rfl
    have ready' := placed.globals.trans globals₂
    generalize freed = final at attached' ⊢
    unfold Kernel.SameGlobals at attached' ready'
    rw [attached', attach, ready']
  have closed : (do
      if t = 0 then pure (-enomem)
      else do
        let res ← fat16ResolveHeader diskstreamerRead p t
        diskstreamerClose t
        pure res : K Int).run opened =
          .ok (-efsnotus, { titled with heap := heap }.setObj t none) := by
    rw [if_neg placed₃.notNull, Exec.bind_of_ok headed, diskstreamerClose, Exec.bind_of_ok close,
      Exec.run_pure]
  refine ⟨_, { freed with disk := { freed.disk with fsPrivate := 0 } }, ?_, inv₇.of_same rfl rfl,
    last ▸ room₇, by rw [globals]⟩
  unfold fat16Resolve kzalloc
  rw [Exec.bind_of_ok request, Exec.bind_of_ok init, Exec.bind_of_ok (Exec.run_update _ _), ← attach,
    Exec.bind_of_ok (Exec.run_read _ _), attachedId, Exec.bind_of_ok new, Exec.bind_of_ok closed,
    if_pos (by decide), Exec.bind_of_ok free, Exec.bind_of_ok (Exec.run_update _ _), Exec.run_pure]

theorem fat16Resolve_rejects {lower upper : Nat} (inv : KernelInvariant region live kernel)
    (room : kernel.heap.Room lower upper) (enough : lower + 5 ≤ upper) (id : kernel.disk.id = 0)
    (signature : (FatHeader.decode (window kernel.drive 0 sizeofFatH)).signature ≠ 0x29) :
    ∃ next, (fat16Resolve diskstreamerRead).run kernel = .ok (-efsnotus, next) := by
  obtain ⟨_, next, run, _⟩ := fat16Resolve_rejected inv room enough id signature
  exact ⟨next, run⟩

end Resolve

/-- The disk of zeros is rejected by the booted kernel. -/
theorem fat16Resolve_zeros : ∃ next,
    (fat16Resolve diskstreamerRead).run bootKernel = .ok (-efsnotus, next) := by
  have room : bootKernel.heap.Room 0 25600 := bootWithDisk_room []
  exact fat16Resolve_rejects (freshKernel_invariant kernelHeapRegion) room (by decide) rfl
    (by decide)

theorem resolveUndone_iff_boot : ∃ next,
    (fat16Resolve diskstreamerRead).run bootKernel = .ok (-efsnotus, next) ∧
      (ResolveUndone kernelHeapRegion [] bootKernel next ↔ NothingToUndo bootKernel.disk) := by
  obtain ⟨next, run⟩ := fat16Resolve_zeros
  exact ⟨next, run, resolveUndone_iff (freshKernel_invariant kernelHeapRegion) run (by decide)⟩

/-- What the rejected disk leaves behind. -/
theorem resolve_leaks : ∃ next,
    (fat16Resolve diskstreamerRead).run bootKernel = .ok (-efsnotus, next) ∧
      ¬ ResolveUndone kernelHeapRegion [] bootKernel next := by
  obtain ⟨next, run⟩ := fat16Resolve_zeros
  obtain ⟨live', stream, inv', held, _⟩ := fat16Resolve_keepsStream
    diskstreamerRead_readsStreams (freshKernel_invariant kernelHeapRegion) rfl run (by decide)
  refine ⟨next, run, ?_⟩
  rintro ⟨_, _, live'', inv'', members⟩
  obtain ⟨allocation, member, _⟩ := inv'.live_iff inv'' held
  exact absurd ((members allocation).mp member) List.not_mem_nil

end Peachos
