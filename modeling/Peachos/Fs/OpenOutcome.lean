import Peachos.Fs.FileOpen

/-! # How far `fopen` comes

A call that completes has refused the path, ended with the parsed path or with an error of the
filesystem, found no free slot in the table, or opened the file (`fopenOutcome_reaches`). Without an
error of the filesystem, what a call that returns 0 has done to the table is nothing
(`fopen_completed`).
-/

namespace Peachos

open CInt Split

/-- A path that was parsed, with its drive and its blocks. -/
structure PathParsed (region : KernelRegion) (live live' : List Allocation) (kernel parsed : Kernel)
    (root drive first : Nat) (names : List (List UInt8)) (ptrs : List Nat) : Prop where
  extended : Extended region live live' kernel parsed fun ptr => ptr = root ∨ ptr ∈ ptrs
  path : ParsedPath parsed root drive names ptrs
  few : names.length ≤ peachosMaxPath
  different : (root :: ptrs).Nodup
  present : parsed.objs root = some (.pathRoot { driveNo := drive, first := first })
  live : PathLive live' parsed first names ptrs

/-- What the filesystem has opened for a path, in new blocks: a descriptor at position 0 and its
item. -/
structure PathOpened (region : KernelRegion) (live live' : List Allocation) (parsed made : Kernel)
    (descriptor item : Nat) (raw : List UInt8) (all owned : Nat → Prop) : Prop where
  grown : Grown region live live' parsed made all
  opened : DescriptorOpened live' made descriptor item raw owned
  own : all descriptor
  within : ∀ ptr, owned ptr → all ptr

/-- The call parses a path with a first part, of the disk, and has a mode: it goes on with the
filesystem. -/
structure AsksFilesystem (kernel parsed : Kernel) (filename modeStr : List UInt8)
    (root first : Nat) : Prop where
  parse : (pathparserParse filename).run kernel = .ok (root, parsed)
  notNull : root ≠ 0
  present : parsed.objs root = some (.pathRoot { driveNo := 0, first := first })
  pathNotEmpty : first ≠ 0
  valid : fileGetModeByString modeStr ≠ fileModeInvalid

/-- How far the call from `kernel` has come when it is at its label `out`. -/
inductive Reaches (read : StreamRead) (region : KernelRegion) (live : List Allocation)
    (kernel : Kernel) (filename modeStr : List UInt8) : OpenOutcome → Kernel → Prop
  | refused {outcome : OpenOutcome} (failed : outcome.res < 0) (noPath : outcome.rootPath = 0)
      (notOpened : outcome.descriptorPrivateData = 0) (noSlot : outcome.desc = 0) :
      Reaches read region live kernel filename modeStr outcome kernel
  | parsed {outcome : OpenOutcome} {parsed : Kernel} {live₁ : List Allocation} {drive first : Nat}
      {names : List (List UInt8)} {ptrs : List Nat} (failed : outcome.res < 0)
      (notNull : outcome.rootPath ≠ 0)
      (path : PathParsed region live live₁ kernel parsed outcome.rootPath drive first names ptrs)
      (notOpened : outcome.descriptorPrivateData = 0) (noSlot : outcome.desc = 0) :
      Reaches read region live kernel filename modeStr outcome parsed
  | error {parsed made : Kernel} {live₁ live₂ : List Allocation} {root first value : Nat}
      {names : List (List UInt8)} {ptrs : List Nat} {all : Nat → Prop}
      (asks : AsksFilesystem kernel parsed filename modeStr root first)
      (opening : (fat16Open read first (fileGetModeByString modeStr)).run parsed =
        .ok (value, made))
      (path : PathParsed region live live₁ kernel parsed root 0 first names ptrs)
      (grown : Grown region live₁ live₂ parsed made all) (error : isErr value = true)
      (unaligned : value % peachosHeapBlockSize ≠ 0) :
      Reaches read region live kernel filename modeStr {
        res := i32 value
        rootPath := root
        disk := .disk
        descriptorPrivateData := value } made
  | full {parsed made : Kernel} {live₁ live₂ : List Allocation} {root first descriptor item : Nat}
      {names : List (List UInt8)} {ptrs : List Nat} {raw : List UInt8} {all owned : Nat → Prop}
      (asks : AsksFilesystem kernel parsed filename modeStr root first)
      (opening : (fat16Open read first (fileGetModeByString modeStr)).run parsed =
        .ok (descriptor, made))
      (path : PathParsed region live live₁ kernel parsed root 0 first names ptrs)
      (opened : PathOpened region live₁ live₂ parsed made descriptor item raw all owned)
      (full : 0 ∉ kernel.fileDescriptors) :
      Reaches read region live kernel filename modeStr {
        res := -enomem
        rootPath := root
        disk := .disk
        descriptorPrivateData := descriptor } made
  | opened {parsed made allocated : Kernel} {live₁ live₂ : List Allocation}
      {root first index desc descriptor item : Nat} {names : List (List UInt8)} {ptrs : List Nat}
      {raw : List UInt8} {all owned : Nat → Prop}
      (path : PathParsed region live live₁ kernel parsed root 0 first names ptrs)
      (opened : PathOpened region live₁ live₂ parsed made descriptor item raw all owned)
      (slot : LowestFree kernel.fileDescriptors index)
      (placed : Placed region live₂ (⟨desc, sizeofFileDescriptor⟩ :: live₂) made
        (.fileDescriptor {}) desc allocated) :
      Reaches read region live kernel filename modeStr {
        res := (index + 1 : Nat)
        rootPath := root
        disk := .disk
        descriptorPrivateData := descriptor
        desc := desc } (allocated.setDescriptor desc (.opened index descriptor)
          (kernel.fileDescriptors.set index desc))

section Steps

variable {region : KernelRegion} {live : List Allocation} {kernel next : Kernel}
  {volume : FatPrivate} {read : StreamRead}

theorem pathparserParse_parsed (inv : KernelInvariant region live kernel) {filename : List UInt8}
    {root : Nat} (run : (pathparserParse filename).run kernel = .ok (root, next))
    (notNull : root ≠ 0) : ∃ live' drive first names ptrs,
      PathParsed region live live' kernel next root drive first names ptrs := by
  rcases pathparserParse_made inv run with ⟨null, _⟩ |
    ⟨_, short, drive, _, rest, rfl, live', ptrs, extended, path, different⟩
  · exact absurd null notNull
  obtain ⟨first, present, parts⟩ := path.parts
  exact ⟨live', drive, first, _, ptrs, extended, path, length_components_of_prefix short, different,
    present, parts, fun ptr member => extended.held ptr (.inr member)⟩

/-- An error of `fat16_open` is no address of a block, and the streams have moved at most. -/
theorem fat16Open_error (reads : ReadsStreams read) (inv : KernelInvariant region live kernel)
    (root : RootLive live volume kernel) {path mode value : Nat} {names : List (List UInt8)}
    {ptrs : List Nat} (pathLive : PathLive live kernel path names ptrs)
    (run : (fat16Open read path mode).run kernel = .ok (value, next)) (error : isErr value = true) :
    value % peachosHeapBlockSize ≠ 0 ∧ ∃ live' all, Grown region live live' kernel next all := by
  by_cases readOnly : mode = fileModeRead
  swap
  · rw [fat16Open, if_pos readOnly] at run
    cases run
    exact ⟨by decide, live, _, .refl inv⟩
  rw [fat16Open, if_neg (not_not.mpr readOnly)] at run
  obtain ⟨descriptor, start, requested, rest⟩ := Exec.bind_eq_ok.mp run
  clear run
  rcases openStarts_or_refused inv requested with ⟨rfl, rfl⟩ | starts
  · rw [if_pos rfl] at rest
    cases rest
    exact ⟨by decide, live, _, .refl inv⟩
  rw [if_neg starts.placed.notNull] at rest
  have started := starts.grown inv
  obtain ⟨item, last, entry, rest⟩ := Exec.bind_eq_ok.mp rest
  obtain ⟨live₁, all, _, _, grown, _, _⟩ := fat16GetDirectoryEntry_made reads started.invariant
    (root.grown started) (pathLive.grown started) entry
  have whole := started.trans grown
  obtain ⟨_, _, _, _, rest⟩ := load_bind_eq_ok.mp rest
  obtain ⟨there, rest⟩ := store_bind_eq_ok.mp rest
  by_cases null : item = 0
  · rw [if_pos null] at rest
    have stored := fun contents => whole.setObj starts.placed.fresh there contents
    obtain ⟨_, freed, free, rest⟩ := Exec.bind_eq_ok.mp rest
    obtain ⟨live₂, _, free', grown', _⟩ := (stored _).free starts.placed.fresh (by
      rw [Kernel.setObj_objs_self]
      rfl)
    rw [free] at free'
    cases free'
    cases rest
    exact ⟨by decide, live₂, _, grown'⟩
  · -- the descriptor lies below 2 GiB, so it is no error
    rw [if_neg null] at rest
    obtain ⟨_, _, _, _, rest⟩ := load_bind_eq_ok.mp rest
    obtain ⟨_, rest⟩ := store_bind_eq_ok.mp rest
    cases rest
    have below : value + _ ≤ 2147483648 := starts.placed.invariant.below List.mem_cons_self
    have oneBlock : blocksFor sizeofFatItem = 1 := by decide
    unfold isErr i32 at error
    rw [oneBlock] at below
    unfold peachosHeapBlockSize at below
    have negative := of_decide_eq_true error
    omega

/-- A completed search for a free slot finds none, or makes a descriptor for the lowest one. -/
theorem fileNewDescriptorLoop_made (inv : KernelInvariant region live kernel) {res : Int}
    {desc : Nat} (count : Nat) : ∀ i,
      (fileNewDescriptorLoop count i).run kernel = .ok ((res, desc), next) →
      ((res, desc) = (-enomem, 0) ∧ next = kernel ∧ ∀ index, i ≤ index → index < i + count →
        kernel.fileDescriptors[index]? ≠ some 0) ∨
      ∃ index allocated, i ≤ index ∧ kernel.fileDescriptors[index]? = some 0 ∧
        (∀ lower, i ≤ lower → lower < index → kernel.fileDescriptors[lower]? ≠ some 0) ∧
        Placed region live (⟨desc, sizeofFileDescriptor⟩ :: live) kernel (.fileDescriptor {}) desc
          allocated ∧ res = 0 ∧ next = allocated.setDescriptor desc
            { index := (index + 1 : Nat) } (kernel.fileDescriptors.set index desc) := by
  induction count with
  | zero =>
      intro i run
      cases run
      exact .inl ⟨rfl, rfl, fun index above below => by omega⟩
  | succ count ih =>
      intro i run
      obtain ⟨slot, _, found, rest⟩ := Exec.bind_eq_ok.mp run
      clear run
      obtain ⟨here, same⟩ := Exec.demand_eq_ok.mp found
      rw [same] at rest
      rw [if_pos (Int.natCast_nonneg _), Int.toNat_natCast] at here
      by_cases free : slot = 0
      swap
      · rw [if_neg free] at rest
        have taken : ∀ index, i ≤ index → index < i + 1 →
            kernel.fileDescriptors[index]? ≠ some 0 := by
          intro index above below
          obtain rfl : index = i := by omega
          rw [here]
          exact fun null => free (Option.some.inj null)
        rcases ih (i + 1) rest with ⟨refused, same, full⟩ | ⟨index, allocated, above, slot, lowest,
          made⟩
        · refine .inl ⟨refused, same, fun index above below => ?_⟩
          by_cases first : index < i + 1
          · exact taken index above first
          · exact full index (by omega) (by omega)
        · refine .inr ⟨index, allocated, by omega, slot, fun lower above below => ?_, made⟩
          by_cases first : lower < i + 1
          · exact taken lower above first
          · exact lowest lower (by omega) below
      subst free
      rw [if_pos rfl] at rest
      obtain ⟨ptr, allocated, requested, rest⟩ := Exec.bind_eq_ok.mp rest
      obtain ⟨_, _, there, typed, rest⟩ := load_bind_eq_ok.mp rest
      have placed := kmalloc_used inv (by decide) (by decide) requested (by rw [there]; rfl)
      rw [placed.present] at there
      cases there
      cases typed
      obtain ⟨_, rest⟩ := store_bind_eq_ok.mp rest
      obtain ⟨_, wrote, write, rest⟩ := Exec.bind_eq_ok.mp rest
      cases rest
      rw [writeFileDescriptors, Exec.run_of] at write
      split at write
      · cases write
        refine .inr ⟨i, allocated, le_rfl, here, fun lower above below => by omega, placed, rfl, ?_⟩
        have same : allocated.fileDescriptors = kernel.fileDescriptors := by rw [placed.globals]
        rw [Int.toNat_natCast, ← same]
        rfl
      · cases write

/-- The slots that were searched are all there are. -/
theorem fileNewDescriptor_made (inv : KernelInvariant region live kernel)
    (size : kernel.fileDescriptors.length = peachosMaxFileDescriptors) {res : Int} {desc : Nat}
    (run : fileNewDescriptor.run kernel = .ok ((res, desc), next)) :
    ((res, desc) = (-enomem, 0) ∧ next = kernel ∧ 0 ∉ kernel.fileDescriptors) ∨
      ∃ index allocated, LowestFree kernel.fileDescriptors index ∧
        Placed region live (⟨desc, sizeofFileDescriptor⟩ :: live) kernel (.fileDescriptor {}) desc
          allocated ∧ res = 0 ∧ next = allocated.setDescriptor desc
            { index := (index + 1 : Nat) } (kernel.fileDescriptors.set index desc) := by
  rcases fileNewDescriptorLoop_made inv _ 0 run with ⟨refused, same, full⟩ |
    ⟨index, allocated, _, slot, lowest, made⟩
  · refine .inl ⟨refused, same, fun free => ?_⟩
    obtain ⟨index, here⟩ := List.mem_iff_getElem?.mp free
    have inside := (List.getElem?_eq_some_iff.mp here).1
    exact full index (Nat.zero_le _) (by omega) here
  · exact .inr ⟨index, allocated, ⟨slot, fun lower below => lowest lower (Nat.zero_le _) below⟩,
      made⟩

end Steps

section Outcome

variable {region : KernelRegion} {live live₁ : List Allocation} {kernel next parsed : Kernel}
  {volume : FatPrivate} {read : StreamRead} {filename modeStr : List UInt8} {outcome : OpenOutcome}

/-- The part on the disk. -/
theorem fopenOnDisk_reaches (reads : ReadsStreams read) {root first : Nat}
    {names : List (List UInt8)} {ptrs : List Nat}
    (parse : (pathparserParse filename).run kernel = .ok (root, parsed)) (notNull : root ≠ 0)
    (pathNotEmpty : first ≠ 0)
    (path : PathParsed region live live₁ kernel parsed root 0 first names ptrs)
    (mounted : RootLive live volume kernel) (filesystem : kernel.disk.filesystem = some .fat16)
    (size : kernel.fileDescriptors.length = peachosMaxFileDescriptors)
    (run : (fopenOnDisk read root first modeStr).run parsed = .ok (outcome, next)) :
    Reaches read region live kernel filename modeStr outcome next := by
  have mounted' := mounted.grown path.extended.toGrown
  unfold fopenOnDisk at run
  by_cases invalid : fileGetModeByString modeStr = fileModeInvalid
  · rw [if_pos invalid] at run
    cases run
    exact .parsed (show -einvagr < 0 by decide) notNull path rfl rfl
  rw [if_neg invalid] at run
  have asks : AsksFilesystem kernel parsed filename modeStr root first :=
    ⟨parse, notNull, path.present, pathNotEmpty, invalid⟩
  obtain ⟨descriptor, made, opening, rest⟩ := Exec.bind_eq_ok.mp run
  clear run
  cases error : isErr descriptor with
  | true =>
      rw [error, if_pos rfl] at rest
      obtain ⟨rfl, rfl⟩ := Prod.mk.inj (Except.ok.inj rest)
      obtain ⟨unaligned, _, _, grown⟩ :=
        fat16Open_error reads path.extended.invariant mounted' path.live opening error
      exact .error asks opening path grown error unaligned
  | false =>
      rw [error, if_neg (by decide)] at rest
      obtain ⟨live₂, all, item, raw, owned, grown, opened, own, within⟩ :=
        fat16Open_made reads path.extended.invariant mounted' path.live opening error
      have opens : PathOpened region live₁ live₂ parsed made descriptor item raw all owned :=
        ⟨grown, opened, own, within⟩
      have globals := (path.extended.toGrown.trans grown).globals
      have same : made.fileDescriptors = kernel.fileDescriptors := by rw [globals]
      obtain ⟨⟨res, desc⟩, last, table, rest⟩ := Exec.bind_eq_ok.mp rest
      dsimp only at rest
      rcases fileNewDescriptor_made grown.invariant (by rw [same, size]) table with
        ⟨refused, rfl, full⟩ | ⟨index, allocated, slot, placed, rfl, rfl⟩
      · obtain ⟨rfl, rfl⟩ := Prod.mk.inj refused
        rw [if_pos (show -enomem < 0 by decide)] at rest
        cases rest
        exact .full asks opening path opens (same ▸ full)
      · rw [if_neg (lt_irrefl 0)] at rest
        obtain ⟨_, _, here, rest⟩ := Exec.bind_eq_ok.mp rest
        cases here
        obtain ⟨_, value, there, typed, rest⟩ := load_bind_eq_ok.mp rest
        have present : (allocated.setDescriptor desc { index := (index + 1 : Nat) }
            (made.fileDescriptors.set index desc)).objs desc =
          some (.fileDescriptor { index := (index + 1 : Nat) }) := Kernel.setObj_objs_self ..
        rw [present] at there
        cases there
        cases typed
        obtain ⟨_, rest⟩ := store_bind_eq_ok.mp rest
        have disk : allocated.disk.filesystem = some .fat16 := by
          rw [placed.globals]
          exact (congrArg Disk.filesystem (show made.disk = kernel.disk by rw [globals])).trans
            filesystem
        cases rest
        have done : Reaches read region live kernel filename modeStr _ _ :=
          .opened path opens (same ▸ slot) placed
        rw [Kernel.setDescriptor, ← Kernel.setObj_setObj allocated desc
          (some (.fileDescriptor { index := (index + 1 : Nat) }))] at done
        rw [show (allocated.setDescriptor desc _ _).disk.filesystem = _ from disk, same]
        exact done

/-- **How far a completed call comes.** -/
theorem fopenOutcome_reaches (reads : ReadsStreams read) (inv : KernelInvariant region live kernel)
    (mounted : RootLive live volume kernel) (filesystem : kernel.disk.filesystem = some .fat16)
    (size : kernel.fileDescriptors.length = peachosMaxFileDescriptors)
    (run : (fopenOutcome read filename modeStr).run kernel = .ok (outcome, next)) :
    Reaches read region live kernel filename modeStr outcome next := by
  obtain ⟨root, parsed, parse, rest⟩ := Exec.bind_eq_ok.mp run
  clear run
  by_cases null : root = 0
  · rw [if_pos null] at rest
    cases rest
    rcases pathparserParse_made inv parse with ⟨_, rfl, _⟩ | ⟨notNull, _⟩
    · exact .refused (show -einvagr < 0 by decide) rfl rfl rfl
    · exact absurd null notNull
  rw [if_neg null] at rest
  obtain ⟨live₁, drive, first, names, ptrs, path⟩ := pathparserParse_parsed inv parse null
  obtain ⟨_, _, present, typed, rest⟩ := load_bind_eq_ok.mp rest
  rw [path.present] at present
  cases present
  cases typed
  dsimp only at rest
  by_cases noPart : first = 0
  · rw [if_pos noPart] at rest
    cases rest
    exact .parsed (show -einvagr < 0 by decide) null path rfl rfl
  rw [if_neg noPart] at rest
  by_cases noDisk : diskGet drive = .null
  · rw [if_pos noDisk] at rest
    cases rest
    exact .parsed (show -eio < 0 by decide) null path rfl rfl
  rw [if_neg noDisk] at rest
  obtain ⟨_, _, here, rest⟩ := Exec.bind_eq_ok.mp rest
  cases here
  have onDisk : drive = 0 := by
    by_contra other
    exact noDisk (if_pos (by omega))
  subst onDisk
  have same : parsed.disk = kernel.disk := by rw [path.extended.globals]
  rw [if_neg (by rw [same, filesystem]; nofun)] at rest
  exact fopenOnDisk_reaches reads parse null noPart path mounted filesystem size rest

end Outcome

end Peachos
