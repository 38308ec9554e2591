import Peachos.Fs.CloseBlocks
import Peachos.Fs.FileTableRuns

/-! # Looking a file number up

`file_new_descriptor` gives slot `i` the number `i + 1`, and `file_get_descriptor` looks `fd` up in
slot `fd - 1`, for numbers from 0 to 511. The two agree on the numbers from 1 to 511 in every run of
`fopen` and `fclose`; 512 is given out and not found, and 0 is looked up before the start of the
table (`fileGetDescriptor_iff`).
-/

namespace Peachos

open CInt

/-- Closing `fd` frees no descriptor of another file and no block of the volume. -/
def ClosesOwn (kernel : Kernel) (fd : Int) : Prop :=
  ∀ desc value, kernel.fileDescriptors[(fd - 1).toNat]? = some desc →
    kernel.objs desc = some (.fileDescriptor value) → ∀ ptr ∈ closeBlocks kernel value.privateData,
      (∀ index, kernel.fileDescriptors[index]? = some ptr → index = (fd - 1).toNat) ∧
      ∀ volume, kernel.objs kernel.disk.fsPrivate = some (.fatPrivate volume) →
        ¬ VolumeOwns volume kernel ptr

/-- The runs of `fopen` and `fclose`, and the numbers that `fopen` has returned and that have not
been closed since. -/
inductive OpenRun (read : StreamRead) (may : Kernel → Int → Prop) (start : Kernel) :
    Kernel → List Int → Prop
  | start : OpenRun read may start start []
  | fopen {kernel next : Kernel} {opened : List Int} {filename modeStr : List UInt8} {res : Int}
      (before : OpenRun read may start kernel opened)
      (run : (fopen read filename modeStr).run kernel = .ok (res, next)) :
      OpenRun read may start next (if res = 0 then opened else res :: opened)
  | fclose {kernel next : Kernel} {opened : List Int} {fd res : Int}
      (before : OpenRun read may start kernel opened) (allowed : may kernel fd)
      (run : (fclose fd).run kernel = .ok (res, next)) :
      OpenRun read may start next (if res = 0 then opened.filter (· ≠ fd) else opened)

/-- The lookup stays in the table; it returns the descriptor with the number of an open file, and
null for every other number. -/
def FindsOpen (kernel : Kernel) (opened : List Int) (fd : Int) : Prop :=
  ∃ desc, (fileGetDescriptor fd).run kernel = .ok (desc, kernel) ∧
    (fd ∈ opened → desc ≠ 0 ∧ ∃ value, kernel.objs desc = some (.fileDescriptor value) ∧
      value.index = fd) ∧
    (fd ∉ opened → desc = 0)

/-- The slots that are not null lead to the descriptors with the open numbers. -/
structure Described (region : KernelRegion) (live : List Allocation) (volume : FatPrivate)
    (kernel : Kernel) (opened : List Int) : Prop where
  invariant : KernelInvariant region live kernel
  root : RootLive live volume kernel
  filesystem : kernel.disk.filesystem = some .fat16
  size : kernel.fileDescriptors.length = peachosMaxFileDescriptors
  desc : ∀ index desc, desc ≠ 0 → kernel.fileDescriptors[index]? = some desc →
    (∃ allocation ∈ live, allocation.ptr = desc) ∧ ∃ descriptor,
      kernel.objs desc = some (.fileDescriptor (.opened index descriptor))
  numbers : ∀ fd, fd ∈ opened ↔ ∃ index desc, fd = (index + 1 : Nat) ∧ desc ≠ 0 ∧
    kernel.fileDescriptors[index]? = some desc

section Described

variable {region : KernelRegion} {live live' : List Allocation} {kernel next last : Kernel}
  {volume : FatPrivate} {opened : List Int} {own : Nat → Prop} {fd : Int}

namespace Described

/-- While other blocks are allocated. -/
theorem grown (described : Described region live volume kernel opened)
    (grown : Grown region live live' kernel next own) :
    Described region live' volume next opened := by
  have same : next.fileDescriptors = kernel.fileDescriptors := by rw [grown.globals]
  refine ⟨grown.invariant, described.root.grown grown, by rw [grown.disk, described.filesystem],
    by rw [same, described.size], fun index desc notNull here => ?_, by
      rw [same]
      exact described.numbers⟩
  obtain ⟨held, descriptor, present⟩ := described.desc index desc notNull (same ▸ here)
  exact ⟨grown.heldStill held, descriptor, (grown.keeps held).obj present rfl⟩

/-- A free slot is the one of no open number. -/
theorem notOpened (described : Described region live volume kernel opened) {index : Nat}
    (free : kernel.fileDescriptors[index]? = some 0) : ((index + 1 : Nat) : Int) ∉ opened := by
  intro member
  obtain ⟨other, desc, same, notNull, here⟩ := (described.numbers _).mp member
  obtain rfl : other = index := by omega
  rw [here] at free
  exact notNull (Option.some.inj free)

/-- A new descriptor in a free slot. -/
theorem opens (described : Described region live volume kernel opened)
    (grown : Grown region live live' kernel next own) {index desc descriptor : Nat}
    (slot : LowestFree kernel.fileDescriptors index) {allocated : Kernel}
    (placed : Placed region live' (⟨desc, sizeofFileDescriptor⟩ :: live') next (.fileDescriptor {})
      desc allocated) :
    Described region (⟨desc, sizeofFileDescriptor⟩ :: live') volume
      (allocated.setDescriptor desc (.opened index descriptor)
        (kernel.fileDescriptors.set index desc)) (((index + 1 : Nat) : Int) :: opened) := by
  have fresh : ∀ allocation ∈ live, allocation.ptr ≠ desc :=
    fun allocation member => placed.fresh allocation (grown.grown member)
  have whole := (grown.placed placed).setObj fresh (by rw [placed.present]; rfl)
    (.fileDescriptor (.opened index descriptor))
  have after := described.grown whole
  have inside := (List.getElem?_eq_some_iff.mp slot.free).1
  have same : (allocated.setObj desc (some (.fileDescriptor (.opened index descriptor)))).fileDescriptors
      = kernel.fileDescriptors := by rw [whole.globals]
  refine ⟨after.invariant.of_same rfl rfl, after.root.of_same rfl rfl, after.filesystem,
    (List.length_set ..).trans described.size, fun other found notNull here => ?_, fun fd => ?_⟩
  · change (kernel.fileDescriptors.set index desc)[other]? = some found at here
    by_cases this : other = index
    · rw [this, List.getElem?_set_self inside] at here
      cases here
      rw [this]
      exact ⟨⟨_, List.mem_cons_self, rfl⟩, descriptor, Kernel.setObj_objs_self ..⟩
    · rw [List.getElem?_set_ne (Ne.symm this), ← same] at here
      exact after.desc other found notNull here
  · change _ ↔ ∃ other found, fd = (other + 1 : Nat) ∧ found ≠ 0 ∧
      (kernel.fileDescriptors.set index desc)[other]? = some found
    rw [List.mem_cons, described.numbers]
    constructor
    · rintro (rfl | ⟨other, found, rfl, notNull, here⟩)
      · exact ⟨index, desc, rfl, placed.notNull, List.getElem?_set_self inside⟩
      · have different : index ≠ other := by
          rintro rfl
          rw [slot.free] at here
          exact notNull (Option.some.inj here).symm
        exact ⟨other, found, rfl, notNull, (List.getElem?_set_ne different).trans here⟩
    · rintro ⟨other, found, rfl, notNull, here⟩
      by_cases this : other = index
      · exact .inl (by rw [this])
      · rw [List.getElem?_set_ne (Ne.symm this)] at here
        exact .inr ⟨other, found, rfl, notNull, here⟩

/-- What a number from 1 to 511 is looked up to. -/
theorem lookup (described : Described region live volume kernel opened) {index : Nat}
    (inside : index + 1 < peachosMaxFileDescriptors) : ∃ desc,
      kernel.fileDescriptors[index]? = some desc ∧
        (fileGetDescriptor (index + 1 : Nat)).run kernel = .ok (desc, kernel) ∧
        (((index + 1 : Nat) : Int) ∈ opened ↔ desc ≠ 0) := by
  have slot := List.getElem?_eq_getElem (show index < kernel.fileDescriptors.length by
    rw [described.size]
    omega)
  refine ⟨_, slot, fileGetDescriptor_slot inside slot, ?_⟩
  rw [described.numbers]
  constructor
  · rintro ⟨other, desc, same, notNull, here⟩
    obtain rfl : other = index := by omega
    rw [slot] at here
    cases here
    exact notNull
  · exact fun notNull => ⟨index, _, rfl, notNull, slot⟩

/-- **Where the lookup is right.** -/
theorem findsOpen_iff (described : Described region live volume kernel opened) (fd : Int) :
    FindsOpen kernel opened fd ↔ fd ≠ 0 ∧ (fd = peachosMaxFileDescriptors → fd ∉ opened) := by
  have outside : fd ≤ 0 ∨ peachosMaxFileDescriptors < fd → fd ∉ opened := by
    intro outside member
    obtain ⟨index, desc, rfl, _, here⟩ := (described.numbers fd).mp member
    have inside := (List.getElem?_eq_some_iff.mp here).1
    rw [described.size] at inside
    omega
  by_cases low : fd < 0
  · have refused : (fileGetDescriptor fd).run kernel = .ok (0, kernel) := by
      rw [fileGetDescriptor, if_pos (.inl low), Exec.run_pure]
    exact iff_of_true ⟨0, refused, fun member => absurd member (outside (.inl low.le)), fun _ => rfl⟩
      ⟨low.ne, fun _ => outside (.inl low.le)⟩
  by_cases zero : fd = 0
  · refine iff_of_false ?_ fun both => both.1 zero
    rintro ⟨desc, found, _⟩
    rw [zero] at found
    cases found
  by_cases beyond : peachosMaxFileDescriptors ≤ fd
  · have refused := @fileGetDescriptor_beyond kernel fd beyond
    constructor
    · rintro ⟨desc, found, opens, _⟩
      rw [refused] at found
      cases found
      exact ⟨zero, fun _ member => (opens member).1 rfl⟩
    · rintro ⟨_, unopened⟩
      refine ⟨0, refused, fun member => absurd member ?_, fun _ => rfl⟩
      rcases beyond.eq_or_lt with last | above
      · exact unopened last.symm
      · exact outside (.inr above)
  · obtain ⟨index, rfl⟩ : ∃ index : Nat, fd = (index + 1 : Nat) := ⟨(fd - 1).toNat, by omega⟩
    have inside : index + 1 < peachosMaxFileDescriptors := by omega
    obtain ⟨desc, slot, found, member⟩ := described.lookup inside
    refine iff_of_true ⟨desc, found, fun here => ?_, fun other => ?_⟩
      ⟨zero, fun last => absurd last.ge beyond⟩
    · have notNull := member.mp here
      obtain ⟨_, descriptor, present⟩ := described.desc index desc notNull slot
      exact ⟨notNull, _, present, rfl⟩
    · by_contra notNull
      exact other (member.mpr notNull)

end Described

/-- What is left is as it was. -/
theorem Released.grown {freed : Nat → Prop}
    (released : Released region live live' kernel next freed) :
    Grown region live' live' kernel next fun _ => False where
  invariant := released.invariant
  grown := List.Subset.refl _
  fresh := fun _ _ => id
  held := fun _ => False.elim
  only := fun _ => .inl
  kept := fun allocation member =>
    .inl (released.kept _ ((released.remaining allocation).mp member).2)
  globals := released.globals

/-- A block of the volume is no descriptor of the table. -/
theorem RootLive.notDescriptor (root : RootLive live volume kernel) {ptr : Nat}
    (owns : VolumeOwns volume kernel ptr) (value : FileDescriptor) :
    kernel.objs ptr ≠ some (.fileDescriptor value) := by
  rcases owns with rfl | stream | rfl
  · rw [root.volumeLive.fsPrivate]
    nofun
  · obtain ⟨_, present, _⟩ := root.volumeLive.onDisk ptr stream
    rw [present]
    nofun
  · obtain ⟨_, present⟩ := root.buffer
    rw [present]
    nofun

/-- A number that is looked up to a descriptor is the one of its slot. -/
theorem fileGetDescriptor_found {desc : Nat} (notNull : desc ≠ 0)
    (found : (fileGetDescriptor fd).run kernel = .ok (desc, kernel)) :
    ∃ index : Nat, fd = (index + 1 : Nat) ∧ index + 1 < peachosMaxFileDescriptors ∧
      kernel.fileDescriptors[index]? = some desc := by
  unfold fileGetDescriptor at found
  split at found
  · cases found
    exact absurd rfl notNull
  next inside =>
    have here := (Exec.demand_eq_ok.mp found).1
    split at here
    next positive => exact ⟨(fd - 1).toNat, by omega, by omega, here⟩
    · cases here

/-- The descriptor is cleared from its slot and freed. -/
theorem Described.closes (described : Described region live volume kernel opened)
    (own : ClosesOwn kernel fd) {desc : Nat} {value : FileDescriptor}
    (closed : FileClosed region live live' kernel last next fd desc value) :
    Described region live' volume next (opened.filter (· ≠ fd)) := by
  obtain ⟨index, rfl, given, slot⟩ := fileGetDescriptor_found closed.notNull closed.lookup
  obtain ⟨_, descriptor, present⟩ := described.desc index desc closed.notNull slot
  have same := closed.present
  rw [present] at same
  cases same
  have this : (((index + 1 : Nat) : Int) - 1).toNat = index := by omega
  have own' := own desc _ (this.symm ▸ slot) present
  have inside := (List.getElem?_eq_some_iff.mp slot).1
  have stays : ∀ ptr, (∃ allocation ∈ live, allocation.ptr = ptr) →
      ptr ≠ desc → ptr ∉ closeBlocks kernel descriptor →
      ∃ allocation ∈ live', allocation.ptr = ptr := by
    rintro _ ⟨allocation, member, rfl⟩ notDesc spared
    exact ⟨allocation, (closed.released.remaining allocation).mpr ⟨member, fun freed =>
      freed.elim notDesc spared⟩, rfl⟩
  have kept := closed.released.grown
  have rootStays : RootLive live' volume kernel := described.root.fewer fun ptr owns =>
    stays ptr (described.root.owned owns)
      (fun here => described.root.notDescriptor owns _ (here ▸ present))
      fun freed => (own' ptr freed).2 volume described.root.volumeLive.fsPrivate owns
  have table : next.fileDescriptors = kernel.fileDescriptors.set index 0 := by
    rw [closed.final, FileDescriptor.opened]
    dsimp only
    rw [this]
  have slots : ∀ other found, found ≠ 0 → (next.fileDescriptors[other]? = some found ↔
      other ≠ index ∧ kernel.fileDescriptors[other]? = some found) := by
    intro other found notNull
    rw [table]
    by_cases here : other = index
    · rw [here, List.getElem?_set_self inside]
      exact iff_of_false (fun null => notNull (Option.some.inj null).symm) fun both => both.1 rfl
    · rw [List.getElem?_set_ne (Ne.symm here)]
      exact (and_iff_right here).symm
  have objs : next.objs = last.objs := by rw [closed.final]
  refine ⟨?_, ?_, ?_, ?_, fun other found notNull here => ?_, fun number => ?_⟩
  · rw [closed.final]
    exact closed.released.invariant.of_same rfl rfl
  · rw [closed.final]
    exact (rootStays.grown kept).of_same rfl rfl
  · rw [closed.final]
    exact (congrArg Disk.filesystem kept.disk).trans described.filesystem
  · rw [table, List.length_set, described.size]
  · obtain ⟨different, before⟩ := (slots other found notNull).mp here
    obtain ⟨held, descriptor', present'⟩ := described.desc other found notNull before
    have notDesc : found ≠ desc := by
      refine Kernel.ne_of_objs present' present fun alike => different ?_
      have number := congrArg FileDescriptor.index (Obj.fileDescriptor.inj alike)
      unfold FileDescriptor.opened at number
      dsimp only at number
      omega
    have spared : found ∉ closeBlocks kernel descriptor :=
      fun freed => different (((own' found freed).1 other before).trans this)
    refine ⟨stays found held notDesc spared, descriptor', ?_⟩
    rw [objs, closed.released.kept found fun freed => freed.elim notDesc spared, present']
  · rw [List.mem_filter, described.numbers, decide_eq_true_iff]
    constructor
    · rintro ⟨⟨other, found, rfl, notNull, before⟩, different⟩
      exact ⟨other, found, rfl, notNull, (slots other found notNull).mpr
        ⟨fun here => different (by rw [here]), before⟩⟩
    · rintro ⟨other, found, rfl, notNull, here⟩
      obtain ⟨different, before⟩ := (slots other found notNull).mp here
      exact ⟨⟨other, found, rfl, notNull, before⟩, by omega⟩

end Described

section Runs

variable {region : KernelRegion} {live : List Allocation} {start kernel : Kernel}
  {volume : FatPrivate} {opened : List Int}

/-- Every run keeps the table of descriptors. -/
theorem OpenRun.described (described : Described region live volume start [])
    (run : OpenRun diskstreamerRead ClosesOwn start kernel opened) :
    ∃ live', Described region live' volume kernel opened := by
  induction run with
  | start => exact ⟨live, described⟩
  | @fopen kernel next opened filename modeStr res before run ih =>
      obtain ⟨live', described'⟩ := ih
      rcases fopen_completed diskstreamerRead_readsStreams described'.invariant described'.root
        described'.filesystem described'.size run with
        ⟨rfl, live'', own, grown⟩ | ⟨positive, outcome, rfl, reaches⟩
      · exact ⟨live'', described'.grown grown⟩
      · rw [if_neg positive.ne']
        cases reaches with
        | refused failed _ _ _ => exact absurd failed (not_lt.mpr positive.le)
        | parsed failed _ _ _ _ => exact absurd failed (not_lt.mpr positive.le)
        | error _ _ _ _ error _ => exact absurd (of_decide_eq_true error) (not_lt.mpr positive.le)
        | full _ _ _ _ _ => exact absurd positive (show ¬ 0 < -enomem by decide)
        | opened path opens slot placed =>
            exact ⟨_, described'.opens (path.extended.toGrown.trans opens.grown) slot placed⟩
  | @fclose kernel next opened fd res before allowed run ih =>
      obtain ⟨live', described'⟩ := ih
      rcases fclose_completed described'.invariant run with ⟨_, rfl, rfl⟩ |
        ⟨rfl, live'', last, desc, value, closed⟩
      · exact ⟨live', described'⟩
      · exact ⟨live'', described'.closes allowed closed⟩

/-- **Looking a file number up.** After every run of `fopen` and `fclose` in which no close frees
the descriptor of another file or a block of the volume, the lookup is right for every number but 0,
and but the last one when it is open. -/
theorem fileGetDescriptor_iff (inv : KernelInvariant region live start)
    (root : RootLive live volume start) (mounted : start.disk.filesystem = some .fat16)
    (empty : start.fileDescriptors = List.replicate peachosMaxFileDescriptors 0)
    (run : OpenRun diskstreamerRead ClosesOwn start kernel opened) (fd : Int) :
    FindsOpen kernel opened fd ↔ fd ≠ 0 ∧ (fd = peachosMaxFileDescriptors → fd ∉ opened) := by
  have null : ∀ index desc : Nat, desc ≠ 0 → start.fileDescriptors[index]? ≠ some desc := by
    intro index desc notNull here
    rw [empty, List.getElem?_replicate] at here
    split at here
    · exact notNull (Option.some.inj here).symm
    · cases here
  have none : Described region live volume start [] := by
    refine ⟨inv, root, mounted, by rw [empty, List.length_replicate],
      fun index desc notNull here => absurd here (null index desc notNull), fun fd =>
        iff_of_false List.not_mem_nil ?_⟩
    rintro ⟨index, desc, _, notNull, here⟩
    exact null index desc notNull here
  obtain ⟨live', described⟩ := run.described none
  exact described.findsOpen_iff fd

end Runs

/-- Mount the volume, open `F` and look its number up. -/
def openAndFind : K (Int × Bool) := do
  let _ ← fat16Resolve diskstreamerRead
  let fd ← fopen diskstreamerRead [48, 58, 47, 70] [114]
  let desc ← fileGetDescriptor fd
  pure (fd, decide (desc ≠ 0))

theorem openAndFind_run : (openAndFind.run tableKernel).map Prod.fst = .ok (1, true) := by
  decide +kernel

/-- `F` is opened, and found under its number. -/
theorem fileGetDescriptor_opened : ∃ start kernel,
    OpenRun diskstreamerRead ClosesOwn start kernel [1] ∧ FindsOpen kernel [1] 1 := by
  obtain ⟨live, start, volume, mount, inv, root, mounted, empty⟩ := tableKernel_mounted
  obtain ⟨_, _, mount', evaluated⟩ := result_of_bind openAndFind_run
  rw [mount] at mount'
  cases mount'
  obtain ⟨fd, kernel, opening, evaluated⟩ := result_of_bind evaluated
  obtain ⟨desc, _, _, results⟩ := result_of_bind evaluated
  obtain ⟨rfl, _⟩ := Prod.mk.inj (Except.ok.inj results)
  have run : OpenRun diskstreamerRead ClosesOwn start kernel [1] := .fopen .start opening
  exact ⟨start, kernel, run, (fileGetDescriptor_iff inv root mounted empty run 1).mpr
    ⟨by decide, fun last => absurd last (by decide)⟩⟩

/-- Before anything is opened, the lookup of 0 reads before the start of the table. -/
theorem fileGetDescriptor_beforeTable : ∃ live start volume,
    KernelInvariant wideHeapRegion live start ∧ RootLive live volume start ∧
      start.disk.filesystem = some .fat16 ∧
      start.fileDescriptors = List.replicate peachosMaxFileDescriptors 0 ∧
      OpenRun diskstreamerRead ClosesOwn start start [] ∧
      (fileGetDescriptor 0).run start = .error (.bufferIndex (-1)) ∧ ¬ FindsOpen start [] 0 := by
  obtain ⟨live, start, volume, _, inv, root, mounted, empty⟩ := tableKernel_mounted
  refine ⟨live, start, volume, inv, root, mounted, empty, .start, rfl, ?_⟩
  rintro ⟨desc, found, _⟩
  cases found

end Peachos
