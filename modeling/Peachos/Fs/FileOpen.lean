import Peachos.Fs.FileClose
import Peachos.Fs.PathFree

/-! # Opening a file

The filesystem has opened a file before `fopen` looks for a slot. In the lowest free slot the new
descriptor becomes one more file of the table (`fopen_free`), and without a free slot all that the
call has allocated is freed again (`fopen_full`).
-/

namespace Peachos

open CInt Split

/-- `filename` leads to a file or a directory that can be opened: the parse of the path and the walk
along it complete, and there is a block for a descriptor of the table if that has a free slot. -/
structure ResolvesTo (read : StreamRead) (kernel parsed made : Kernel) (filename : List UInt8)
    (root first descriptor : Nat) : Prop where
  parse : (pathparserParse filename).run kernel = .ok (root, parsed)
  parsesRoot : root ≠ 0
  path : parsed.objs root = some (.pathRoot { driveNo := 0, first := first })
  pathNotEmpty : first ≠ 0
  opening : (fat16Open read first fileModeRead).run parsed = .ok (descriptor, made)
  succeeds : isErr descriptor = false
  whole : ∀ value item, made.objs descriptor = some (.fatFileDescriptor value) →
    made.objs value.item = some (.fatItem item) → (made.objs item.pointer).isSome
  granted : 0 ∈ made.fileDescriptors → ∃ desc allocated,
    (kmalloc sizeofFileDescriptor (.fileDescriptor {})).run made = .ok (desc, allocated) ∧ desc ≠ 0

section Made

variable {live : List Allocation} {kernel : Kernel} {entry type : Nat} {inner : Nat → Prop}

/-- An item that was made, and leads to an object, leads to what it was made for. -/
theorem ItemMade.loaded {raw : List UInt8} {item : Nat} {owned : Nat → Prop}
    (made : ItemMade live kernel raw item owned) (notNull : item ≠ 0)
    (null : kernel.objs 0 = none)
    (whole : ∀ value, kernel.objs item = some (.fatItem value) →
      (kernel.objs value.pointer).isSome) :
    ∃ entry type inner, kernel.objs item = some (.fatItem { pointer := entry, type := type }) ∧
      ItemLoaded live kernel entry type inner ∧ ∀ ptr, owned ptr ↔ ptr = item ∨ inner ptr := by
  cases made with
  | refused isNull _ => exact absurd isNull notNull
  | uncopied _ present _ =>
      have there := whole _ present
      rw [null] at there
      cases there
  | file pointer _ present copy owns =>
      exact ⟨pointer, _, _, present, .file copy fun _ => Iff.rfl, owns⟩
  | dangling pointer _ present freed _ =>
      have there := whole _ present
      rw [freed] at there
      cases there
  | directory pointer value contents inner _ present loaded owns =>
      exact ⟨pointer, _, inner, present, .directory loaded, owns⟩

theorem ItemLoaded.content (loaded : ItemLoaded live kernel entry type inner) :
    ∃ buffer, ItemContent kernel entry type buffer ∧ ∀ ptr ∈ entry :: buffer, inner ptr := by
  cases loaded with
  | file copy owns =>
      exact ⟨[], .file copy, fun ptr member => (owns ptr).mpr (List.mem_singleton.mp member)⟩
  | @directory value contents _ loaded =>
      obtain ⟨count, total, length⟩ := loaded.count
      by_cases empty : contents = []
      · refine ⟨[], .empty loaded.present ?_, fun ptr member =>
          List.mem_singleton.mp member ▸ loaded.owns⟩
        rw [empty, List.length_nil] at length
        unfold sizeofFatDirectoryItem at length
        omega
      · refine ⟨[value.item], .directory loaded.present empty total length loaded.buffer, ?_⟩
        intro ptr member
        rw [List.mem_cons, List.mem_singleton] at member
        exact (loaded.buffered empty ptr).mpr member

/-- What an item leads to stays while other blocks are freed. -/
theorem ItemLoaded.of_kept {live' : List Allocation} {next : Kernel} {gone : Nat → Prop}
    (loaded : ItemLoaded live kernel entry type inner)
    (kept : ∀ ptr, ¬ gone ptr → next.objs ptr = kernel.objs ptr)
    (apart : ∀ ptr, gone ptr → (∃ allocation ∈ live, allocation.ptr = ptr) ∧ ¬ inner ptr)
    (fewer : ∀ allocation ∈ live', ∃ other ∈ live, other.ptr = allocation.ptr) :
    ItemLoaded live' next entry type inner := by
  have own : ∀ ptr, inner ptr → next.objs ptr = kernel.objs ptr :=
    fun ptr here => kept ptr fun there => (apart ptr there).2 here
  cases loaded with
  | file copy owns => exact .file ((own entry ((owns _).mpr rfl)).trans copy) owns
  | @directory value contents _ loaded =>
      refine .directory (loaded.congr (own entry loaded.owns) ?_ ?_)
      · by_cases empty : contents = []
        · refine kept _ fun there => ?_
          obtain ⟨⟨allocation, member, same⟩, _⟩ := apart _ there
          exact (loaded.unbuffered empty).2 allocation member same
        · exact own _ ((loaded.buffered empty _).mpr (.inr rfl))
      · intro empty allocation member same
        obtain ⟨other, member', same'⟩ := fewer allocation member
        exact (loaded.unbuffered empty).2 other member' (same'.trans same)

end Made

section Slots

variable {region : KernelRegion} {live : List Allocation} {kernel : Kernel}

/-- The slots that are taken are passed over. -/
theorem fileNewDescriptorLoop_skip {count : Nat} : ∀ skipped i,
    (∀ index, i ≤ index → index < i + skipped → ∃ desc,
      kernel.fileDescriptors[index]? = some desc ∧ desc ≠ 0) →
    (fileNewDescriptorLoop (skipped + count) i).run kernel =
      (fileNewDescriptorLoop count (i + skipped)).run kernel := by
  intro skipped
  induction skipped with
  | zero => exact fun i _ => by rw [Nat.zero_add, Nat.add_zero]
  | succ skipped ih =>
      intro i taken
      obtain ⟨desc, here, notNull⟩ := taken i le_rfl (by omega)
      have slot : (readFileDescriptors i).run kernel = .ok (desc, kernel) := by
        apply Exec.demand_of_some
        rw [if_pos (Int.natCast_nonneg _), Int.toNat_natCast]
        exact here
      rw [Nat.add_right_comm, fileNewDescriptorLoop, Exec.bind_of_ok slot, if_neg notNull,
        ih (i + 1) fun index above below => taken index (by omega) (by omega),
        Nat.add_right_comm, Nat.add_assoc]

/-- Without a free slot an error is returned. -/
theorem fileNewDescriptor_full (size : kernel.fileDescriptors.length = peachosMaxFileDescriptors)
    (full : 0 ∉ kernel.fileDescriptors) :
    fileNewDescriptor.run kernel = .ok ((-enomem, 0), kernel) := by
  have taken : ∀ index, 0 ≤ index → index < 0 + peachosMaxFileDescriptors → ∃ desc,
      kernel.fileDescriptors[index]? = some desc ∧ desc ≠ 0 := by
    intro index _ inside
    rw [Nat.zero_add, ← size] at inside
    exact ⟨_, List.getElem?_eq_getElem inside, fun null => full (null ▸ List.getElem_mem inside)⟩
  exact @fileNewDescriptorLoop_skip kernel 0 peachosMaxFileDescriptors 0 taken

/-- A descriptor is written, and the table. -/
def Kernel.setDescriptor (kernel : Kernel) (desc : Nat) (value : FileDescriptor)
    (slots : List Nat) : Kernel :=
  { kernel.setObj desc (some (.fileDescriptor value)) with fileDescriptors := slots }

/-- The descriptor of an open file of the disk. -/
def FileDescriptor.opened (index descriptor : Nat) : FileDescriptor where
  index := (index + 1 : Nat)
  filesystem := some .fat16
  privateData := descriptor
  disk := .disk

/-- The lowest free slot. -/
structure LowestFree (table : List Nat) (index : Nat) : Prop where
  free : table[index]? = some 0
  lowest : ∀ lower < index, table[lower]? ≠ some 0

theorem exists_lowestFree {table : List Nat} (free : 0 ∈ table) :
    ∃ index, LowestFree table index := by
  have some : ∃ index, table[index]? = some 0 := List.mem_iff_getElem?.mp free
  exact ⟨_, Nat.find_spec some, fun lower less => Nat.find_min some less⟩

/-- A new descriptor goes to the lowest free slot. -/
theorem fileNewDescriptor_lowest (inv : KernelInvariant region live kernel)
    (size : kernel.fileDescriptors.length = peachosMaxFileDescriptors) {index : Nat}
    (slot : LowestFree kernel.fileDescriptors index)
    (granted : ∃ desc allocated, (kmalloc sizeofFileDescriptor (.fileDescriptor {})).run kernel =
      .ok (desc, allocated) ∧ desc ≠ 0) :
    ∃ desc allocated, Placed region live (⟨desc, sizeofFileDescriptor⟩ :: live) kernel
        (.fileDescriptor {}) desc allocated ∧
      fileNewDescriptor.run kernel = .ok ((0, desc), allocated.setDescriptor desc
        { index := (index + 1 : Nat) } (kernel.fileDescriptors.set index desc)) := by
  have inside := (List.getElem?_eq_some_iff.mp slot.free).1
  rw [size] at inside
  obtain ⟨count, total⟩ : ∃ count, peachosMaxFileDescriptors = index + (count + 1) :=
    ⟨peachosMaxFileDescriptors - index - 1, by omega⟩
  have taken : ∀ lower, 0 ≤ lower → lower < 0 + index → ∃ desc,
      kernel.fileDescriptors[lower]? = some desc ∧ desc ≠ 0 := by
    intro lower _ less
    have present := List.getElem?_eq_getElem (show lower < kernel.fileDescriptors.length by omega)
    exact ⟨_, present, fun null => slot.lowest lower (by omega) (null ▸ present)⟩
  obtain ⟨desc, allocated, requested, notNull⟩ := granted
  have placed := (kmalloc_positive inv (by decide) (by decide) requested).resolve_left
    fun refused => notNull refused.1
  have here : (readFileDescriptors index).run kernel = .ok (0, kernel) := by
    apply Exec.demand_of_some
    rw [if_pos (Int.natCast_nonneg _), Int.toNat_natCast]
    exact slot.free
  have loaded : (load Obj.fileDescriptor? desc).run allocated = .ok ({}, allocated) :=
    load_of_obj placed.present rfl
  have stored : (store desc (.fileDescriptor { index := (index : Int) + 1 })).run allocated =
      .ok ((), allocated.setObj desc (some (.fileDescriptor { index := (index + 1 : Nat) }))) :=
    store_of_live (by rw [placed.present]; rfl)
  have same : allocated.fileDescriptors = kernel.fileDescriptors := by rw [placed.globals]
  refine ⟨desc, allocated, placed, ?_⟩
  rw [fileNewDescriptor, total, fileNewDescriptorLoop_skip index 0 taken, Nat.zero_add,
    fileNewDescriptorLoop, Exec.bind_of_ok here, if_pos rfl, Exec.bind_of_ok requested,
    Exec.bind_of_ok loaded, Exec.bind_of_ok stored]
  have written : (writeFileDescriptors index desc).run
      (allocated.setObj desc (some (.fileDescriptor { index := (index + 1 : Nat) }))) =
      .ok ((), allocated.setDescriptor desc { index := (index + 1 : Nat) }
        (kernel.fileDescriptors.set index desc)) := by
    rw [writeFileDescriptors, Exec.run_of, Int.toNat_natCast, if_pos ⟨Int.natCast_nonneg _, by
      change index < allocated.fileDescriptors.length
      rw [same, size]
      exact inside⟩]
    change Except.ok ((),
      allocated.setDescriptor desc _ (allocated.fileDescriptors.set index desc)) = _
    rw [same]
  rw [Exec.bind_of_ok written, Exec.run_pure]

end Slots

section Path

variable {region : KernelRegion} {live live' live₁ : List Allocation}
  {kernel next parsed later : Kernel} {owned own : Nat → Prop}

/-- Blocks that are new are freed one after the other. -/
theorem Grown.freeAll : ∀ {blocks : List Nat} {live' : List Allocation} {next : Kernel}
    {owned : Nat → Prop}, Grown region live live' kernel next owned → blocks.Nodup →
    (∀ ptr ∈ blocks, ∀ allocation ∈ live, allocation.ptr ≠ ptr) →
    (∀ ptr ∈ blocks, (next.objs ptr).isSome) →
    ∃ live'' last, (kfreeAll blocks).run next = .ok ((), last) ∧
      Grown region live live'' kernel last fun ptr => owned ptr ∧ ptr ∉ blocks := by
  intro blocks
  induction blocks with
  | nil =>
      intro live' next owned grown _ _ _
      exact ⟨live', next, rfl, grown.congr fun ptr => by
        simp only [List.not_mem_nil, not_false_eq_true, and_true]⟩
  | cons block blocks ih =>
      intro live' next owned grown different new present
      rw [List.nodup_cons] at different
      obtain ⟨live₁, middle, freed, grown₁, _, kept⟩ :=
        grown.free (new block List.mem_cons_self) (present block List.mem_cons_self)
      obtain ⟨live₂, last, freed', grown₂⟩ := ih grown₁ different.2
        (fun ptr member => new ptr (List.mem_cons_of_mem _ member)) fun ptr member => by
          rw [kept ptr fun same => different.1 (same ▸ member)]
          exact present ptr (List.mem_cons_of_mem _ member)
      refine ⟨live₂, last, ?_, grown₂.congr fun ptr => ?_⟩
      · rw [kfreeAll, Exec.bind_of_ok freed, freed']
      · rw [List.mem_cons, not_or, and_assoc]

/-- The path that a call has parsed is freed when the call has done something else since. -/
theorem pathparserFree_grown (extended : Extended region live live' kernel parsed owned)
    {root drive : Nat} {names : List (List UInt8)} {ptrs : List Nat}
    (path : ParsedPath parsed root drive names ptrs) (few : names.length ≤ peachosMaxPath)
    (different : (root :: ptrs).Nodup) (owns : ∀ ptr, owned ptr ↔ ptr = root ∨ ptr ∈ ptrs)
    (grown : Grown region live' live₁ parsed later own) :
    ∃ live₂ last, (pathparserFree root).run later = .ok ((), last) ∧
      Grown region live live₂ kernel last (fun ptr => (owned ptr ∨ own ptr) ∧ ¬ owned ptr) ∧
      ∀ ptr, ¬ owned ptr → last.objs ptr = later.objs ptr := by
  obtain ⟨first, rootHere, parts⟩ := path.parts
  have keeps : ∀ ptr, owned ptr → parsed.Keeps later ptr :=
    fun ptr here => grown.keeps (extended.held ptr here)
  have path' : ParsedPath later root drive names ptrs :=
    ⟨first, (keeps root ((owns _).mpr (.inl rfl))).obj rootHere rfl,
      parts.of_keeps fun ptr member => keeps ptr ((owns _).mpr (.inr member))⟩
  have listed : ∀ ptr, ptr ∈ freeOrder ptrs ++ [root] ↔ owned ptr := by
    intro ptr
    rw [owns, List.mem_append, List.mem_singleton, (freeOrder_perm ptrs).mem_iff, or_comm]
  have once : (freeOrder ptrs ++ [root]).Nodup :=
    ((List.perm_append_singleton root _).trans ((freeOrder_perm ptrs).cons root)).nodup_iff.mpr
      different
  have whole := extended.toGrown.trans grown
  have new : ∀ ptr ∈ freeOrder ptrs ++ [root], ∀ allocation ∈ live, allocation.ptr ≠ ptr :=
    fun ptr member allocation there same =>
      extended.fresh allocation there (same ▸ (listed ptr).mp member)
  obtain ⟨live₂, last, freed, grown'⟩ := whole.freeAll once new fun ptr member => by
    obtain ⟨allocation, there, rfl⟩ := whole.held ptr (.inl ((listed ptr).mp member))
    exact whole.invariant.held allocation there
  refine ⟨live₂, last, (pathparserFree_eq path' few (List.nodup_cons.mp different).2).trans freed,
    grown'.congr fun ptr => by rw [listed], fun ptr unowned => ?_⟩
  exact kfreeAll_kept freed ptr fun member => unowned ((listed ptr).mp member)

end Path

section Open

variable {region : KernelRegion} {live live' : List Allocation}
  {kernel next parsed made middle : Kernel} {volume : FatPrivate} {records : List FileRecord}
  {read : StreamRead} {filename modeStr : List UInt8} {root first descriptor : Nat}

theorem fileGetModeByString_cases (notWrite : fileGetModeByString modeStr ≠ fileModeWrite)
    (notAppend : fileGetModeByString modeStr ≠ fileModeAppend) :
    fileGetModeByString modeStr = fileModeRead ∨ fileGetModeByString modeStr = fileModeInvalid := by
  unfold fileGetModeByString at *
  split_ifs at * <;> simp_all only [true_or, or_true, ne_eq, not_true]

/-- A path that was parsed, with its blocks. -/
structure PathMade (region : KernelRegion) (live live' : List Allocation) (kernel parsed : Kernel)
    (root first : Nat) (names : List (List UInt8)) (ptrs : List Nat) : Prop where
  extended : Extended region live live' kernel parsed fun ptr => ptr = root ∨ ptr ∈ ptrs
  path : ParsedPath parsed root 0 names ptrs
  few : names.length ≤ peachosMaxPath
  different : (root :: ptrs).Nodup
  live : PathLive live' parsed first names ptrs

theorem ResolvesTo.pathMade (resolves : ResolvesTo read kernel parsed made filename root first
    descriptor) (inv : KernelInvariant region live kernel) :
    ∃ live' names ptrs, PathMade region live live' kernel parsed root first names ptrs := by
  rcases pathparserParse_made inv resolves.parse with ⟨null, _⟩ |
    ⟨_, short, drive, _, rest, rfl, live', ptrs, extended, path, different⟩
  · exact absurd null resolves.parsesRoot
  obtain ⟨first', rootHere, parts⟩ := path.parts
  have same := resolves.path.symm.trans rootHere
  simp only [Option.some.injEq, Obj.pathRoot.injEq, PathRoot.mk.injEq] at same
  obtain ⟨zero, rfl⟩ := same
  obtain rfl : drive = 0 := by omega
  exact ⟨live', _, ptrs, extended, path, length_components_of_prefix short, different, parts,
    fun ptr member => extended.held ptr (.inr member)⟩

theorem PathMade.mounted {names : List (List UInt8)} {ptrs : List Nat}
    (path : PathMade region live live' kernel parsed root first names ptrs)
    (mounted : kernel.disk.filesystem = some .fat16) : parsed.disk.filesystem = some .fat16 := by
  rw [path.extended.globals]
  exact mounted

/-- The call goes on with the disk of the path. -/
theorem fopenOutcome_onDisk (parse : (pathparserParse filename).run kernel = .ok (root, parsed))
    (notNull : root ≠ 0)
    (path : parsed.objs root = some (.pathRoot { driveNo := 0, first := first }))
    (notEmpty : first ≠ 0) (mounted : parsed.disk.filesystem = some .fat16) :
    (fopenOutcome read filename modeStr).run kernel =
      (fopenOnDisk read root first modeStr).run parsed := by
  have loaded : (load Obj.pathRoot? root).run parsed = .ok (_, parsed) := load_of_obj path rfl
  rw [fopenOutcome, Exec.bind_of_ok parse, if_neg notNull, Exec.bind_of_ok loaded, if_neg notEmpty,
    if_neg (show ¬ diskGet 0 = .null by decide),
    Exec.bind_of_ok (Exec.run_read _ _), if_neg (by rw [mounted]; nofun)]

theorem fopenOutcome_resolved (resolves : ResolvesTo read kernel parsed made filename root first
    descriptor) (mounted : parsed.disk.filesystem = some .fat16) :
    (fopenOutcome read filename modeStr).run kernel =
      (fopenOnDisk read root first modeStr).run parsed :=
  fopenOutcome_onDisk resolves.parse resolves.parsesRoot resolves.path resolves.pathNotEmpty mounted

/-- The end of `fopen` with a parsed path, and without a descriptor of the table. -/
theorem fopenCleanUp_run {outcome : OpenOutcome} (parses : outcome.rootPath ≠ 0)
    (onDisk : outcome.disk = .disk) (none : outcome.desc = 0)
    (freed : (pathparserFree outcome.rootPath).run kernel = .ok ((), middle))
    (closed : outcome.descriptorPrivateData = 0 ∧ next = middle ∨
      outcome.descriptorPrivateData ≠ 0 ∧
        (fat16Close outcome.descriptorPrivateData).run middle = .ok (0, next)) :
    (fopenCleanUp outcome).run kernel = .ok (0, next) := by
  rw [fopenCleanUp]
  dsimp only
  rw [if_pos parses, Exec.bind_of_ok freed]
  rcases closed with ⟨null, rfl⟩ | ⟨notNull, closed⟩
  · rw [if_neg fun both => both.2 null, if_neg (not_not.mpr none), Exec.run_pure]
  · rw [if_pos ⟨by rw [onDisk]; nofun, notNull⟩, Exec.bind_of_ok closed,
      if_neg (not_not.mpr none), Exec.run_pure]

/-- **An invalid mode.** The path is freed again. -/
theorem fopen_invalid (table : FileTable region live volume kernel records)
    (resolves : ResolvesTo read kernel parsed made filename root first descriptor)
    (invalid : fileGetModeByString modeStr = fileModeInvalid) :
    ∃ live' next own, (fopen read filename modeStr).run kernel = .ok (0, next) ∧
      Grown region live live' kernel next own := by
  obtain ⟨live₁, names, ptrs, path⟩ := resolves.pathMade table.invariant
  have mounted := path.mounted table.filesystem
  obtain ⟨live₂, last, freed, grown, _⟩ := pathparserFree_grown path.extended path.path path.few
    path.different (fun _ => Iff.rfl) (.refl path.extended.invariant)
  refine ⟨live₂, last, _, ?_, grown⟩
  have outcome : (fopenOutcome read filename modeStr).run kernel =
      .ok ({ res := -einvagr, rootPath := root, disk := .disk }, parsed) := by
    rw [fopenOutcome_resolved resolves mounted, fopenOnDisk]
    dsimp only
    rw [if_pos invalid, Exec.run_pure]
  rw [fopen, Exec.bind_of_ok outcome, if_pos (show -einvagr < 0 by decide)]
  exact fopenCleanUp_run resolves.parsesRoot rfl rfl freed (.inl ⟨rfl, rfl⟩)

/-- What a path that resolves has been opened to: new blocks for the descriptor and its item. -/
structure FileMade (region : KernelRegion) (live live' : List Allocation) (kernel made : Kernel)
    (descriptor item entry type : Nat) (inner own : Nat → Prop) : Prop where
  grown : Grown region live live' kernel made own
  opens : made.objs descriptor = some (.fatFileDescriptor { item := item, pos := 0 })
  present : made.objs item = some (.fatItem { pointer := entry, type := type })
  loaded : ItemLoaded live' made entry type inner
  owns : ∀ ptr, ptr = descriptor ∨ ptr = item ∨ inner ptr → own ptr

theorem ResolvesTo.fileMade (resolves : ResolvesTo read kernel parsed made filename root first
    descriptor) (reads : ReadsStreams read) (table : FileTable region live volume kernel records)
    {names : List (List UInt8)} {ptrs : List Nat}
    (path : PathMade region live live' kernel parsed root first names ptrs) :
    ∃ live₂ item entry type inner own,
      FileMade region live' live₂ parsed made descriptor item entry type inner own := by
  have rootLive := table.root.grown path.extended.toGrown
  obtain ⟨live₂, all, item, raw, owned, grown, opened, own, within⟩ := fat16Open_made reads
    path.extended.invariant rootLive path.live resolves.opening resolves.succeeds
  obtain ⟨entry, type, inner, present, loaded, owns⟩ := opened.made.loaded opened.notNull
    grown.invariant.null fun value here => resolves.whole _ value opened.opens here
  refine ⟨live₂, item, entry, type, inner, all, grown, opened.opens, present, loaded, ?_⟩
  rintro ptr (rfl | mine)
  · exact own
  · exact within ptr ((owns ptr).mpr mine)

/-- The call as far as the filesystem, in a mode to read. -/
theorem fopenOutcome_opened (resolves : ResolvesTo read kernel parsed made filename root first
    descriptor) (mounted : parsed.disk.filesystem = some .fat16)
    (reading : fileGetModeByString modeStr = fileModeRead) {res : Int} {desc : Nat}
    (slot : fileNewDescriptor.run made = .ok ((res, desc), next)) (failed : res < 0) :
    (fopenOutcome read filename modeStr).run kernel = .ok ({
      res := res
      rootPath := root
      disk := .disk
      descriptorPrivateData := descriptor
      desc := desc }, next) := by
  rw [fopenOutcome_resolved resolves mounted, fopenOnDisk]
  dsimp only
  rw [reading, if_neg (by decide), Exec.bind_of_ok resolves.opening, resolves.succeeds,
    if_neg (by decide), Exec.bind_of_ok slot]
  dsimp only
  rw [if_pos failed, Exec.run_pure]

/-- **A full table.** What was opened is closed again. -/
theorem fopen_full (reads : ReadsStreams read)
    (table : FileTable region live volume kernel records)
    (resolves : ResolvesTo read kernel parsed made filename root first descriptor)
    (reading : fileGetModeByString modeStr = fileModeRead) (full : 0 ∉ kernel.fileDescriptors) :
    ∃ live' next own, (fopen read filename modeStr).run kernel = .ok (0, next) ∧
      Grown region live live' kernel next own := by
  obtain ⟨live₁, names, ptrs, path⟩ := resolves.pathMade table.invariant
  obtain ⟨live₂, item, entry, type, inner, own, file⟩ := resolves.fileMade reads table path
  have mounted := path.mounted table.filesystem
  have same : made.fileDescriptors = kernel.fileDescriptors := by
    rw [(path.extended.toGrown.trans file.grown).globals]
  have slot := fileNewDescriptor_full (by rw [same, table.size]) (by rw [same]; exact full)
  have new : ∀ ptr, own ptr → ¬ (ptr = root ∨ ptr ∈ ptrs) := by
    rintro ptr mine here
    obtain ⟨allocation, member, rfl⟩ := path.extended.held ptr here
    exact file.grown.fresh allocation member mine
  obtain ⟨live₃, freed, free, grown, kept⟩ := pathparserFree_grown path.extended path.path path.few
    path.different (fun _ => Iff.rfl) file.grown
  have loaded : ItemLoaded live₃ freed entry type inner := by
    refine file.loaded.of_kept kept (fun ptr here => ?_) fun allocation member => ?_
    · exact ⟨file.grown.heldStill (path.extended.held ptr here),
        fun mine => new ptr (file.owns ptr (.inr (.inr mine))) here⟩
    · rcases grown.only allocation member with old | ⟨before | mine, _⟩
      · exact ⟨allocation, file.grown.grown (path.extended.grown old), rfl⟩
      · exact file.grown.heldStill (path.extended.held _ before)
      · exact file.grown.held _ mine
  have opens := (kept descriptor (new _ (file.owns _ (.inl rfl)))).trans file.opens
  have present := (kept item (new _ (file.owns _ (.inr (.inl rfl))))).trans file.present
  have apart : ∀ allocation ∈ live, ∀ ptr, own ptr → allocation.ptr ≠ ptr :=
    fun allocation member ptr mine here =>
      file.grown.fresh allocation (path.extended.grown member) (here ▸ mine)
  obtain ⟨live₄, last, close, grown', _⟩ := fat16Close_run grown opens present loaded
    fun allocation member => ⟨apart allocation member _ (file.owns _ (.inl rfl)),
      apart allocation member _ (file.owns _ (.inr (.inl rfl))),
      fun mine => apart allocation member _ (file.owns _ (.inr (.inr mine))) rfl⟩
  have notNull : descriptor ≠ 0 := by
    rintro rfl
    rw [grown.invariant.null] at opens
    cases opens
  refine ⟨live₄, last, _, ?_, grown'⟩
  rw [fopen, Exec.bind_of_ok (fopenOutcome_opened resolves mounted reading slot (by decide)),
    if_pos (show -enomem < 0 by decide)]
  exact fopenCleanUp_run resolves.parsesRoot rfl rfl free (.inr ⟨notNull, close⟩)

/-- The new descriptor of the table, filled in. -/
theorem fopenOnDisk_placed (mounted : made.disk.filesystem = some .fat16)
    (opening : (fat16Open read first fileModeRead).run parsed = .ok (descriptor, made))
    (succeeds : isErr descriptor = false) (reading : fileGetModeByString modeStr = fileModeRead)
    {index desc : Nat} {allocated : Kernel} {slots : List Nat}
    (disk : allocated.disk = made.disk)
    (slot : fileNewDescriptor.run made = .ok ((0, desc),
      allocated.setDescriptor desc { index := (index + 1 : Nat) } slots)) :
    (fopenOnDisk read root first modeStr).run parsed = .ok ({
      res := (index + 1 : Nat)
      rootPath := root
      disk := .disk
      descriptorPrivateData := descriptor
      desc := desc }, allocated.setDescriptor desc (.opened index descriptor) slots) := by
  have present : (allocated.setDescriptor desc { index := (index + 1 : Nat) } slots).objs desc =
      some (.fileDescriptor { index := (index + 1 : Nat) }) := Kernel.setObj_objs_self ..
  have loaded : (load Obj.fileDescriptor? desc).run (allocated.setDescriptor desc
      { index := (index + 1 : Nat) } slots) = .ok (_, _) := load_of_obj present rfl
  have filled : ∀ value : FileDescriptor, (allocated.setDescriptor desc
      { index := (index + 1 : Nat) } slots).setObj desc (some (.fileDescriptor value)) =
        allocated.setDescriptor desc value slots := by
    intro value
    rw [Kernel.setDescriptor, Kernel.setDescriptor, ← Kernel.setObj_setObj allocated desc
      (some (.fileDescriptor { index := (index + 1 : Nat) })) (some (.fileDescriptor value))]
    rfl
  have filesystem : allocated.disk.filesystem = some .fat16 := by rw [disk, mounted]
  rw [fopenOnDisk]
  dsimp only
  rw [reading, if_neg (by decide), Exec.bind_of_ok opening, succeeds, if_neg (by decide),
    Exec.bind_of_ok slot]
  dsimp only
  rw [if_neg (lt_irrefl 0), Exec.bind_of_ok (Exec.run_read _ _), Exec.bind_of_ok loaded,
    Exec.bind_of_ok (store_of_live (by rw [present]; rfl)), Exec.run_pure, filled,
    show (allocated.setDescriptor desc _ slots).disk.filesystem = _ from filesystem]
  rfl

/-- **A free slot.** What was opened is one more file, in the lowest one. -/
theorem fopen_free (reads : ReadsStreams read)
    (table : FileTable region live volume kernel records)
    (resolves : ResolvesTo read kernel parsed made filename root first descriptor)
    (reading : fileGetModeByString modeStr = fileModeRead) {index : Nat}
    (slot : LowestFree kernel.fileDescriptors index) :
    ∃ live' next desc left, (fopen read filename modeStr).run kernel =
        .ok ((index + 1 : Nat), next) ∧ FileTable region live' volume next left ∧
      KeepsFiles kernel next (fun _ => False) ∧ desc ≠ 0 ∧
        next.fileDescriptors[index]? = some desc := by
  obtain ⟨live₁, names, ptrs, path⟩ := resolves.pathMade table.invariant
  obtain ⟨live₂, item, entry, type, inner, own, file⟩ := resolves.fileMade reads table path
  have mounted := path.mounted table.filesystem
  have whole := path.extended.toGrown.trans file.grown
  have same : made.fileDescriptors = kernel.fileDescriptors := by rw [whole.globals]
  have size := (congrArg List.length same).trans table.size
  obtain ⟨desc, allocated, placed, slotMade⟩ := fileNewDescriptor_lowest file.grown.invariant size
    (same ▸ slot) (resolves.granted (List.mem_of_getElem? (same ▸ slot.free)))
  rw [same] at slotMade
  have done : (fopenOnDisk read root first modeStr).run parsed = _ :=
    fopenOnDisk_placed (by rw [file.grown.disk, mounted]) resolves.opening resolves.succeeds reading
      (by rw [placed.globals]) slotMade
  obtain ⟨buffer, content, within⟩ := file.loaded.content
  have fresh : ∀ allocation ∈ live, allocation.ptr ≠ desc :=
    fun allocation member => placed.fresh allocation (whole.grown member)
  have grown := (whole.placed placed).setObj fresh (by rw [placed.present]; rfl)
    (.fileDescriptor (.opened index descriptor))
  have kept : ∀ ptr, ptr = descriptor ∨ ptr = item ∨ inner ptr → ∀ after,
      (allocated.setObj desc after).objs ptr = made.objs ptr := by
    intro ptr mine after
    obtain ⟨allocation, member, rfl⟩ := file.grown.held ptr (file.owns ptr mine)
    rw [Kernel.setObj_objs_of_ne _ _ (placed.fresh allocation member),
      placed.kept allocation member]
  obtain ⟨inEntry, inBuffer⟩ := List.forall_mem_cons.mp within
  have holds : FileRecord.Holds ⟨index, ⟨desc, descriptor, item, entry⟩, 0, type, buffer⟩
      (allocated.setObj desc (some (.fileDescriptor (.opened index descriptor)))) :=
    ⟨Kernel.setObj_objs_self .., (kept _ (.inl rfl) _).trans file.opens,
      (kept _ (.inr (.inl rfl)) _).trans file.present,
      (content.congr (kept _ (.inr (.inr inEntry)) _)
        fun ptr member => kept _ (.inr (.inr (inBuffer ptr member))) _).1⟩
  have held := table.toFilesHeld.add grown holds fun ptr member => by
    rcases List.mem_cons.mp member with here | member
    · exact .inl here
    refine .inr (.inr (file.owns ptr ?_))
    rcases List.mem_cons.mp member with here | member
    · exact .inl here
    rcases List.mem_cons.mp member with here | member
    · exact .inr (.inl here)
    · exact .inr (.inr (within ptr member))
  refine ⟨_, allocated.setDescriptor desc (.opened index descriptor)
      (kernel.fileDescriptors.set index desc), desc, _, ?_, ⟨held.of_same rfl rfl,
      grown.invariant.of_same rfl rfl, (List.length_set ..).trans table.size, ?_⟩, ?_,
    placed.notNull, List.getElem?_set_self (List.getElem?_eq_some_iff.mp slot.free).1⟩
  · rw [fopen, Exec.bind_of_ok ((fopenOutcome_resolved resolves mounted).trans done),
      if_neg (not_lt.mpr (Int.natCast_nonneg _)), Exec.run_pure]
  · exact table.slots_with ⟨index, ⟨desc, descriptor, item, entry⟩, 0, type, buffer⟩ slot.free
  · have keeps : KeepsFiles kernel (allocated.setDescriptor desc (.opened index descriptor)
        (kernel.fileDescriptors.set index desc)) (· = index) :=
      table.keepsFiles table.toFilesHeld (fun _ member _ => member) grown rfl
        fun _ untouched => List.getElem?_set_ne (Ne.symm untouched)
    intro other found _ notNull here
    refine keeps other found (fun taken => ?_) notNull here
    rw [taken, slot.free] at here
    exact notNull (Option.some.inj here).symm

end Open

end Peachos
