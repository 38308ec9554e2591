import Peachos.Fs.SubdirectoryOrder

/-! # Components that name nothing

Where the root directory has no entry of a name, or the name is the last one of the path, the null
item of the lookup is the result. Between these the walk goes on with it and reads its type:
`missReported_iff`.
-/

namespace Peachos

open CInt Window

section Open

variable {region : KernelRegion} {live : List Allocation} {kernel start next : Kernel}
  {volume : FatPrivate} {read : StreamRead} {path descriptor : Nat}

/-- `fat16_open` has allocated its descriptor and starts the walk. -/
structure OpenStarts (region : KernelRegion) (live : List Allocation) (kernel : Kernel)
    (descriptor : Nat) (start : Kernel) : Prop where
  requested : (kmalloc sizeofFatItem (.fatFileDescriptor {})).run kernel = .ok (descriptor, start)
  placed : Placed region live (⟨descriptor, sizeofFatItem⟩ :: live) kernel (.fatFileDescriptor {})
    descriptor start

theorem OpenStarts.grown (inv : KernelInvariant region live kernel)
    (starts : OpenStarts region live kernel descriptor start) :
    Grown region live (⟨descriptor, sizeofFatItem⟩ :: live) kernel start (· = descriptor) :=
  ((Grown.refl inv).placed starts.placed).congr fun _ => or_iff_left not_false

theorem openStarts_or_refused (inv : KernelInvariant region live kernel)
    (requested : (kmalloc sizeofFatItem (.fatFileDescriptor {})).run kernel =
      .ok (descriptor, start)) :
    descriptor = 0 ∧ start = kernel ∨ OpenStarts region live kernel descriptor start :=
  (kmalloc_positive inv (by decide) (by decide) requested).imp_right fun placed =>
    ⟨requested, placed⟩

/-- A walk that found nothing: the descriptor is freed, and an error reported. -/
theorem fat16Open_null (inv : KernelInvariant region live kernel)
    (starts : OpenStarts region live kernel descriptor start) {live' : List Allocation}
    {all : Nat → Prop}
    (entry : (fat16GetDirectoryEntry read path).run start = .ok (0, next))
    (grown : Grown region (⟨descriptor, sizeofFatItem⟩ :: live) live' start next all) :
    ∃ live'' last, (fat16Open read path fileModeRead).run kernel =
        .ok (errorPointer (-eio), last) ∧ Grown region live live'' kernel last all := by
  have held : ∃ allocation ∈ (⟨descriptor, sizeofFatItem⟩ :: live : List Allocation),
      allocation.ptr = descriptor := ⟨_, List.mem_cons_self, rfl⟩
  have present := (grown.keeps held).obj starts.placed.present rfl
  have loaded : (load Obj.fatFileDescriptor? descriptor).run next = .ok (_, next) :=
    load_of_obj present rfl
  have there : (next.objs descriptor).isSome := by
    rw [present]
    rfl
  have fresh := starts.placed.fresh
  have whole := ((starts.grown inv).trans grown).setObj fresh there
    (.fatFileDescriptor { item := 0 })
  obtain ⟨live'', last, free, grown', _⟩ := whole.free fresh (by
    rw [Kernel.setObj_objs_self]
    rfl)
  refine ⟨live'', last, ?_, grown'.congr fun ptr => ?_⟩
  · rw [fat16Open, if_neg (not_not.mpr rfl), kzalloc, Exec.bind_of_ok starts.requested,
      if_neg starts.placed.notNull, Exec.bind_of_ok entry, Exec.bind_of_ok loaded,
      Exec.bind_of_ok (store_of_live there), if_pos rfl, Exec.bind_of_ok free, Exec.run_pure]
  · constructor
    · rintro ⟨same | own, different⟩
      · exact absurd same different
      · exact own
    · refine fun own => ⟨.inr own, fun same => ?_⟩
      exact grown.fresh ⟨descriptor, sizeofFatItem⟩ List.mem_cons_self (same ▸ own)

end Open

/-- The name of the part is that of no entry of the directory. -/
def NamesNothing (kernel : Kernel) (directory : FatDirectory) (part : Nat) : Prop :=
  ∃ value name contents, kernel.objs part = some (.pathPart value) ∧
    kernel.objs value.part = some (.bytes name) ∧
    kernel.objs directory.item = some (.bytes contents) ∧
    ∀ k, sizeofFatDirectoryItem * (k + 1) ≤ contents.length →
      ¬ Matches directory contents name k

/-- The buffer of the directory has all its entries. -/
def EntriesFit (kernel : Kernel) (directory : FatDirectory) : Prop :=
  ∃ contents, kernel.objs directory.item = some (.bytes contents) ∧
    sizeofFatDirectoryItem * directory.total.toNat ≤ contents.length

/-- The part is the last one of the path. -/
def LastPart (kernel : Kernel) (part : Nat) : Prop :=
  ∃ value, kernel.objs part = some (.pathPart value) ∧ value.next = 0

/-- The walk returns null, and `fat16_open` reports an error in whatever mode. -/
structure MissReported (kernel start : Kernel) (path : Nat) : Prop where
  entry : ∃ next, (fat16GetDirectoryEntry diskstreamerRead path).run start = .ok (0, next)
  opened : ∀ mode, ∃ value next, (fat16Open diskstreamerRead path mode).run kernel =
    .ok (value, next) ∧ isErr value = true

section Missing

variable {region : KernelRegion} {live : List Allocation} {kernel start here : Kernel}
  {volume : FatPrivate} {read : StreamRead} {path descriptor current part : Nat}
  {directory : FatDirectory} {names : List (List UInt8)} {ptrs : List Nat}

/-- A directory that the walk has gone down to has all its entries in its buffer. -/
theorem Holding.fits {live' : List Allocation} {all mine : Nat → Prop} {contents : List UInt8}
    (holding : Holding region live live' start here all mine current directory contents)
    (below : current ≠ 0) :
    sizeofFatDirectoryItem * directory.total.toNat ≤ contents.length := by
  obtain ⟨_, _, _, _, loaded, _⟩ := holding.item.resolve_left fun root => below root.1
  obtain ⟨count, total, length⟩ := loaded.count
  rw [total, length, Int.toNat_natCast]

/-- A search for nothing in a buffer that has all entries. -/
theorem fat16FindItemInDirectory_nothing {contents name : List UInt8}
    (buffer : here.objs directory.item = some (.bytes contents))
    (fits : sizeofFatDirectoryItem * directory.total.toNat ≤ contents.length)
    (none : ∀ k, sizeofFatDirectoryItem * (k + 1) ≤ contents.length →
      ¬ Matches directory contents name k) :
    (fat16FindItemInDirectory read directory name).run here = .ok (0, here) := by
  refine fat16FindItemLoop_none buffer 0 _ 0 (by rwa [Nat.zero_add]) fun k _ before named => ?_
  rw [Nat.zero_add] at before
  exact none k ((Nat.mul_le_mul_left _ before).trans fits) ⟨before, named⟩

/-- The missing name is the first one, looked up in a buffer that has all entries, or the last. -/
def FirstOrLast (here : Kernel) (current : Nat) (directory : FatDirectory) (part : Nat) : Prop :=
  current = 0 ∧ EntriesFit here directory ∨ current ≠ 0 ∧ LastPart here part

/-- **A walk that finds nothing** returns null for the first name and for the last one. -/
theorem fat16GetDirectoryEntry_missing (reads : ReadsStreams read)
    (inv : KernelInvariant region live start) (root : RootLive live volume start)
    (pathLive : PathLive live start path names ptrs)
    (walked : Walked read start path here current directory part)
    (missing : NamesNothing here directory part) (place : FirstOrLast here current directory part) :
    ∃ next live' all, (fat16GetDirectoryEntry read path).run start = .ok (0, next) ∧
      Grown region live live' start next all := by
  obtain ⟨live', all, mine, contents, names', ptrs', point⟩ :=
    walked.point reads inv root pathLive
  obtain ⟨value, name, contents, present, named, buffer, none⟩ := missing
  have target := point.holding.target
  have same := target.buffer
  rw [buffer] at same
  cases same
  have search := fun fits =>
    @fat16FindItemInDirectory_nothing _ read _ _ name buffer fits none
  rcases place with ⟨rfl, other, there, fits⟩ | ⟨below, other, there, last⟩
  · obtain ⟨_, rfl, rfl, rfl⟩ := point.runs.resolve_right fun below => below.1 rfl
    rw [buffer] at there
    cases there
    refine ⟨here, live, _, ?_, .refl inv⟩
    rw [fat16GetDirectoryEntry_searched root.volumeLive.fsPrivate present named (search fits),
      if_pos rfl]
  · obtain ⟨_, fuel, enough, runs⟩ := point.runs.resolve_left fun root => below root.1
    rw [present] at there
    cases there
    have search := search (point.holding.fits below)
    obtain ⟨next, live'', add, owned, raw, freed, stepped⟩ :=
      point.holding.step (fat16FindItemInDirectory_searched reads point.holding.grown.invariant
        (root.volumeLive.grown point.holding.grown) target search)
    have notNull : part ≠ 0 := by
      rintro rfl
      rw [point.holding.grown.invariant.null] at present
      cases present
    obtain ⟨_, _, _, _, _, cons⟩ := point.left.uncons notNull
    rw [cons.names, List.length_cons] at enough
    obtain ⟨less, rfl⟩ : ∃ less, fuel = less + 1 := ⟨fuel - 1, by omega⟩
    refine ⟨next, live'', _, ?_, stepped.grown⟩
    rw [runs, walkRest_searched present named search below freed, last,
      fat16GetDirectoryEntryLoop, if_pos rfl, Exec.run_pure]

/-- For a name between them the walk reads the null item. -/
theorem fat16GetDirectoryEntry_stuck (reads : ReadsStreams read)
    (inv : KernelInvariant region live start) (root : RootLive live volume start)
    (pathLive : PathLive live start path names ptrs)
    (walked : Walked read start path here current directory part)
    (missing : NamesNothing here directory part) {result : Nat × Kernel}
    (run : (fat16GetDirectoryEntry read path).run start = .ok result) :
    FirstOrLast here current directory part := by
  obtain ⟨live', all, mine, contents, names', ptrs', point⟩ :=
    walked.point reads inv root pathLive
  obtain ⟨value, name, contents, present, named, buffer, none⟩ := missing
  have target := point.holding.target
  have same := target.buffer
  rw [buffer] at same
  cases same
  have inv' := point.holding.grown.invariant
  have mounted := root.volumeLive.grown point.holding.grown
  rcases point.runs with ⟨rfl, rfl, rfl, rfl⟩ | ⟨below, fuel, _, runs⟩
  · obtain ⟨_, _, search⟩ :=
      fat16GetDirectoryEntry_completed root.volumeLive.fsPrivate present named run
    exact .inl ⟨rfl, contents, buffer, target.fits reads inv' mounted search⟩
  · right
    refine ⟨below, value, present, ?_⟩
    by_contra more
    have search := @fat16FindItemInDirectory_nothing _ read _ _ name buffer
      (point.holding.fits below) none
    obtain ⟨next, _, _, _, _, freed, stepped⟩ := point.holding.step
      (fat16FindItemInDirectory_searched reads inv' mounted target search)
    rw [runs, walkRest_searched present named search below freed] at run
    cases fuel with
    | zero => cases run
    | succ fuel =>
        rw [fat16GetDirectoryEntryLoop, if_neg more] at run
        obtain ⟨_, _, there, _, _⟩ := load_bind_eq_ok.mp run
        rw [stepped.grown.invariant.null] at there
        cases there

/-- **When a missing component is reported.** -/
theorem missReported_iff (inv : KernelInvariant region live kernel)
    (root : RootLive live volume kernel) (pathLive : PathLive live kernel path names ptrs)
    (requested : (kmalloc sizeofFatItem (.fatFileDescriptor {})).run kernel =
      .ok (descriptor, start))
    (walked : Walked diskstreamerRead start path here current directory part)
    (missing : NamesNothing here directory part) :
    MissReported kernel start path ↔ FirstOrLast here current directory part := by
  have reads := diskstreamerRead_readsStreams
  have readOnly : ∀ mode, mode ≠ fileModeRead →
      (fat16Open diskstreamerRead path mode).run kernel = .ok (errorPointer (-erdonly), kernel) := by
    intro mode other
    rw [fat16Open, if_pos other, Exec.run_pure]
  rcases openStarts_or_refused inv requested with ⟨rfl, rfl⟩ | starts
  · have refused : (fat16Open diskstreamerRead path fileModeRead).run start =
        .ok (errorPointer (-enomem), start) := by
      rw [fat16Open, if_neg (not_not.mpr rfl), kzalloc, Exec.bind_of_ok requested, if_pos rfl,
        Exec.run_pure]
    constructor
    · rintro ⟨⟨next, run⟩, _⟩
      exact fat16GetDirectoryEntry_stuck reads inv root pathLive walked missing run
    · intro place
      obtain ⟨next, _, _, run, _⟩ :=
        fat16GetDirectoryEntry_missing reads inv root pathLive walked missing place
      refine ⟨⟨next, run⟩, fun mode => ?_⟩
      by_cases reading : mode = fileModeRead
      · rw [reading]
        exact ⟨_, _, refused, by decide⟩
      · exact ⟨_, _, readOnly mode reading, by decide⟩
  · have grown := starts.grown inv
    constructor
    · rintro ⟨⟨next, run⟩, _⟩
      exact fat16GetDirectoryEntry_stuck reads grown.invariant (root.grown grown)
        (pathLive.grown grown) walked missing run
    · intro place
      obtain ⟨next, live', all, run, grown'⟩ := fat16GetDirectoryEntry_missing reads
        grown.invariant (root.grown grown) (pathLive.grown grown) walked missing place
      refine ⟨⟨next, run⟩, fun mode => ?_⟩
      by_cases reading : mode = fileModeRead
      · obtain ⟨_, last, opened, _⟩ := fat16Open_null inv starts run grown'
        rw [reading]
        exact ⟨_, last, opened, by decide⟩
      · exact ⟨_, _, readOnly mode reading, by decide⟩

end Missing

/-- A small volume with a path, and an open that has its descriptor. -/
theorem SmallVolume.opening {bytes : List (Nat × UInt8)} {entries : List (List UInt8)}
    {live : List Allocation} {kernel : Kernel} {volume : FatPrivate}
    (small : SmallVolume bytes entries live kernel volume) {names : List (List UInt8)}
    (short : ∀ name ∈ names, name.length < peachosMaxPath) (few : names.length ≤ 100) :
    ∃ live' ready all path ptrs descriptor start,
      Grown kernelHeapRegion live live' kernel ready all ∧ PathLive live' ready path names ptrs ∧
        OpenStarts kernelHeapRegion live' ready descriptor start ∧ start.heap.Room 207 25600 := by
  obtain ⟨live', ready, all, path, ptrs, grown, pathLive, room⟩ :=
    exists_pathLive small.invariant small.room short (by omega)
  have oneBlock : blocksFor sizeofFatItem = 1 := by decide
  obtain ⟨descriptor, start, requested, placed, room⟩ := kmalloc_room grown.invariant room
    (show 1 ≤ sizeofFatItem by decide) (by decide) (by rw [oneBlock]; omega)
    (.fatFileDescriptor {})
  exact ⟨live', ready, all, path, ptrs, descriptor, start, grown, pathLive, ⟨requested, placed⟩,
    room.inside, fun block after => room.free block (by omega)⟩

/-- A search for the one entry of the root directory makes its item. -/
theorem SmallVolume.search {bytes : List (Nat × UInt8)} {raw name : List UInt8}
    {live live' : List Allocation} {kernel start : Kernel} {volume : FatPrivate} {all : Nat → Prop}
    (small : SmallVolume bytes [raw] live kernel volume)
    (grown : Grown kernelHeapRegion live live' kernel start all) (kept : liveCount [raw] = 1)
    (entry : itemBytes (window (imageOf (smallHeader ++ bytes)) 1024 512) 0 = raw)
    (matching : Named raw name) :
    (fat16FindItemInDirectory diskstreamerRead volume.rootDirectory name).run start =
      (fat16NewFatItemForDirectoryItem diskstreamerRead raw).run start := by
  have root := small.root.grown grown
  have one : volume.rootDirectory.total.toNat = 0 + (0 + 1) := by
    rw [small.total, kept]
    rfl
  have contents := (grown.keeps small.root.held).obj small.buffer rfl
  rw [fat16FindItemInDirectory, one, fat16FindItemLoop_last diskstreamerRead_readsStreams
    grown.invariant root.volumeLive contents root.held (by rw [length_window]; decide)
    (by rwa [entry]) (by omega), entry]
  rfl

/-- The entry of a subdirectory in the root directory, and one entry in its cluster. -/
def subdirectoryImage : List (Nat × UInt8) :=
  (1536, 65) :: (List.range 32).map fun i => (1024 + i, subdirectoryEntry.getD i 0)

/-- The path `path` names the subdirectory first, where the open from `kernel` has come at `here`. It
goes on with the part `second`, and the name of that is in no entry of the subdirectory. -/
structure Descended (names : List (List UInt8)) (live : List Allocation) (kernel start here : Kernel)
    (volume : FatPrivate) (path second descriptor item : Nat) (directory : FatDirectory)
    (ptrs : List Nat) : Prop where
  invariant : KernelInvariant kernelHeapRegion live kernel
  root : RootLive live volume kernel
  pathLive : PathLive live kernel path names ptrs
  starts : OpenStarts kernelHeapRegion live kernel descriptor start
  one : volume.rootDirectory.total.toNat = 1
  rootEntry : ∃ contents, start.objs volume.rootDirectory.item = some (.bytes contents) ∧
    itemBytes contents 0 = subdirectoryEntry
  first : ∃ buffer name, start.objs path = some (.pathPart { part := buffer, next := second }) ∧
    start.objs buffer = some (.bytes name) ∧
    (fat16FindItemInDirectory diskstreamerRead volume.rootDirectory name).run start =
      .ok (item, here)
  more : second ≠ 0
  below : DirectoryOf here item directory
  notNull : item ≠ 0
  missing : ∃ value name contents, here.objs second = some (.pathPart value) ∧
    (value.next = 0 ↔ names.length = 2) ∧ here.objs value.part = some (.bytes name) ∧
    here.objs directory.item = some (.bytes contents) ∧ ∀ k, ¬ Matches directory contents name k

namespace Descended

variable {names : List (List UInt8)} {live : List Allocation} {kernel start here : Kernel}
  {volume : FatPrivate} {path second descriptor item : Nat} {directory : FatDirectory}
  {ptrs : List Nat}

theorem walked (descended : Descended names live kernel start here volume path second descriptor item
    directory ptrs) : Walked diskstreamerRead start path here item directory second := by
  obtain ⟨_, _, part, named, search⟩ := descended.first
  have grown := descended.starts.grown descended.invariant
  exact .down (.root (descended.root.grown grown).volumeLive.fsPrivate) part named search
    (.inl ⟨rfl, rfl⟩) descended.below descended.more

theorem namesNothing (descended : Descended names live kernel start here volume path second
    descriptor item directory ptrs) : NamesNothing here directory second := by
  obtain ⟨value, name, contents, part, _, named, buffer, none⟩ := descended.missing
  exact ⟨value, name, contents, part, named, buffer, fun k _ => none k⟩

end Descended

/-- A small volume with a subdirectory, and a path through it to a name that it does not have. -/
theorem exists_descended {after : List (List UInt8)}
    (short : ∀ name ∈ after, name.length < peachosMaxPath) (few : after.length ≤ 98) :
    ∃ live kernel start here volume path second descriptor item directory ptrs,
      Descended (itemName subdirectoryEntry :: [88] :: after) live kernel start here volume path
        second descriptor item directory ptrs := by
  have reads := diskstreamerRead_readsStreams
  obtain ⟨live, kernel, volume, small⟩ := @smallVolume_boot subdirectoryImage [subdirectoryEntry]
    (by decide +kernel) (by decide +kernel) (by decide)
  have short' : ∀ name ∈ itemName subdirectoryEntry :: [88] :: after,
      name.length < peachosMaxPath := List.forall_mem_cons.mpr ⟨by decide +kernel,
    List.forall_mem_cons.mpr ⟨by decide, short⟩⟩
  obtain ⟨live', ready, all, path, ptrs, descriptor, start, grown, pathLive, starts, room⟩ :=
    small.opening short' (by rw [List.length_cons, List.length_cons]; omega)
  have grown' := starts.grown grown.invariant
  have whole := grown.trans grown'
  have opened := pathLive.grown grown'
  have root := small.root.grown whole
  obtain ⟨_, _, buffer, second, _, first⟩ := opened.uncons opened.parts.1
  cases first.names
  have entry : itemBytes (window (imageOf (smallHeader ++ subdirectoryImage)) 1024 512) 0 =
      subdirectoryEntry := by decide +kernel
  have search := @SmallVolume.search _ _ (partBuffer (itemName subdirectoryEntry)) _ _ _ _ _ _ small
    whole (by decide) entry (by decide +kernel)
  have stored : DirectoryAt (imageOf (smallHeader ++ subdirectoryImage)) 1536
      [65 :: List.replicate 31 0] := by decide +kernel
  obtain ⟨chain, counted⟩ := smallVolume_oneEntry small stored (by decide)
  rw [← whole.drive] at chain counted
  obtain ⟨item, here, directory, made, reached, total, items⟩ := chain.newItem grown'.invariant
    root.volumeLive (small.bounded.grown whole) (by decide)
    (.inl ⟨by decide, room.after (by decide)⟩) counted
  obtain ⟨_, _, grown'', _⟩ := fat16NewFatItemForDirectoryItem_completed reads grown'.invariant
    root.volumeLive (by decide) made
  have rest := first.left.grown grown''
  obtain ⟨_, _, buffer', third, _, next⟩ := rest.uncons rest.parts.1
  cases next.names
  refine ⟨live', ready, start, here, volume, path, second, descriptor, item, directory, ptrs,
    grown.invariant, small.root.grown grown, pathLive, starts, ?_,
    ⟨_, (whole.keeps small.root.held).obj small.buffer rfl, entry⟩,
    ⟨_, _, first.part, first.name, search.trans made⟩, rest.parts.1, reached,
    reached.notNull grown''.invariant.null,
    ⟨_, _, _, next.part, ?_, next.name, items, fun k matches' => ?_⟩⟩
  · rw [small.total]
    decide
  · have ends := next.left.parts
    cases after with
    | nil => exact iff_of_true ends.1 rfl
    | cons name after => exact iff_of_false ends.1 (by simp only [List.length_cons]; omega)
  · obtain ⟨before, named⟩ := matches'
    rw [total] at before
    obtain rfl : k = 0 := by simpa using before
    exact absurd named (by decide +kernel)

/-- A name that is not in a subdirectory, the last one of a path of two names. -/
theorem missReported_boot : ∃ live kernel start path ptrs,
    KernelInvariant kernelHeapRegion live kernel ∧
      PathLive live kernel path [itemName subdirectoryEntry, [88]] ptrs ∧
      MissReported kernel start path := by
  obtain ⟨live, kernel, start, here, volume, path, second, descriptor, item, directory, ptrs,
    descended⟩ := @exists_descended [] (by decide) (by decide)
  obtain ⟨value, _, _, part, last, _⟩ := descended.missing
  exact ⟨live, kernel, start, path, ptrs, descended.invariant, descended.pathLive,
    (missReported_iff descended.invariant descended.root descended.pathLive
      descended.starts.requested descended.walked descended.namesNothing).mpr
        (.inr ⟨descended.notNull, value, part, last.mpr rfl⟩)⟩

/-- A name that is not in a subdirectory, with another one after it. -/
theorem missReported_middle : ∃ live kernel volume names ptrs path descriptor start here current
    directory part, KernelInvariant kernelHeapRegion live kernel ∧ RootLive live volume kernel ∧
      PathLive live kernel path names ptrs ∧
      (kmalloc sizeofFatItem (.fatFileDescriptor {})).run kernel = .ok (descriptor, start) ∧
      Walked diskstreamerRead start path here current directory part ∧
      NamesNothing here directory part ∧ ¬ MissReported kernel start path := by
  obtain ⟨live, kernel, start, here, volume, path, second, descriptor, item, directory, ptrs,
    descended⟩ := @exists_descended [[89]] (by decide) (by decide)
  have grown := descended.starts.grown descended.invariant
  refine ⟨live, kernel, volume, _, ptrs, path, descriptor, start, here, item, directory, second,
    descended.invariant, descended.root, descended.pathLive, descended.starts.requested,
    descended.walked, descended.namesNothing, fun reported => ?_⟩
  obtain ⟨⟨_, run⟩, _⟩ := reported
  obtain ⟨_, _, _, part, last, _⟩ := descended.missing
  rcases fat16GetDirectoryEntry_stuck diskstreamerRead_readsStreams grown.invariant
    (descended.root.grown grown) (descended.pathLive.grown grown) descended.walked
    descended.namesNothing run with ⟨null, _⟩ | ⟨_, value, there, ends⟩
  · exact descended.notNull null
  · rw [part] at there
    cases there
    exact absurd (last.mp ends) (by decide)

end Peachos
