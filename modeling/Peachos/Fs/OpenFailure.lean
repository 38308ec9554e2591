import Peachos.Fs.CloseBlocks
import Peachos.Fs.FileTableRuns
import Peachos.Fs.WalkEnds

/-! # What a failed `fopen` undoes

At its label `out`, `fopen` frees the path and asks the filesystem to close what is not null, which
an error of `fat16_open` is not either. So a call that fails undoes what it has done just when it
fails for another reason: the path resolves on the disk, or the filesystem is not asked. With a full
table the walk along the path must lose nothing, and its last item must have room
(`failsCleanly_iff`).
-/

namespace Peachos

open CInt

/-- At its label `out` the call asks the filesystem to close nothing but what the filesystem has
opened; then the table is unchanged and the same allocations are live. -/
def FailsCleanly (region : KernelRegion) (live : List Allocation) (kernel : Kernel)
    (outcome : OpenOutcome) (made : Kernel) : Prop :=
  (outcome.disk ≠ .null ∧ outcome.descriptorPrivateData ≠ 0 →
    isErr outcome.descriptorPrivateData = false) ∧
  ∃ next, (fopenCleanUp outcome).run made = .ok (0, next) ∧
    next.fileDescriptors = kernel.fileDescriptors ∧ SameLive region live next

/-- If the filesystem is asked, the mode is read, a block is free for the descriptor and no lookup
of the walk along the path leads to nothing; and in a full table no lookup loses an item, and there
is room for the last one. -/
def UndoesOpen (volume : FatPrivate) (kernel : Kernel) (filename modeStr : List UInt8) : Prop :=
  ∀ {parsed root first}, AsksFilesystem kernel parsed filename modeStr root first →
    FindsItem parsed first (fileGetModeByString modeStr) ∧ (0 ∉ kernel.fileDescriptors →
      LosesNothing parsed first (fileGetModeByString modeStr) ∧ LastFits volume parsed first)

section Whole

variable {region : KernelRegion} {live live' : List Allocation} {start kernel final : Kernel}
  {descriptor item : Nat} {raw : List UInt8} {own owned : Nat → Prop}

/-- An item that leads to no directory is freed alone. -/
theorem fat16Close_noDirectory (grown : Grown region live live' start kernel own)
    (opens : kernel.objs descriptor = some (.fatFileDescriptor { item := item, pos := 0 }))
    (present : kernel.objs item =
      some (.fatItem { pointer := 0, type := fatItemTypeDirectory }))
    (apart : ∀ allocation ∈ live, allocation.ptr ≠ descriptor ∧ allocation.ptr ≠ item) :
    ∃ live'' last, (fat16Close descriptor).run kernel = .ok (0, last) ∧
      Grown region live live'' start last
        fun ptr => own ptr ∧ ¬ (ptr = descriptor ∨ ptr = item) := by
  have opened : (load Obj.fatFileDescriptor? descriptor).run kernel = .ok (_, kernel) :=
    load_of_obj opens rfl
  have loaded : (load Obj.fatItem? item).run kernel = .ok (_, kernel) := load_of_obj present rfl
  obtain ⟨live₁, middle, freed, grown₁, _, kept⟩ :=
    grown.free (fun allocation member => (apart allocation member).2) (by rw [present]; rfl)
  have stays := kept descriptor (Kernel.ne_of_objs opens present nofun)
  obtain ⟨live₂, last, freed', grown₂, _⟩ := grown₁.free
    (fun allocation member => (apart allocation member).1) (by rw [stays, opens]; rfl)
  refine ⟨live₂, last, ?_, grown₂.congr fun ptr => by tauto⟩
  have free : (fat16FatItemFree item).run kernel = .ok ((), middle) := by
    rw [fat16FatItemFree, Exec.bind_of_ok loaded, if_pos rfl, fat16FreeDirectory, if_pos rfl,
      Exec.bind_of_ok (Exec.run_pure _ _), freed]
  rw [fat16Close, fat16FreeFileDescriptor, Exec.bind_assoc, Exec.bind_of_ok opened,
    Exec.bind_assoc, Exec.bind_of_ok free, Exec.bind_of_ok freed', Exec.run_pure]

/-- **Closing a whole item** frees its blocks and the descriptor. -/
theorem fat16Close_whole (grown : Grown region live live' start kernel own)
    (opened : DescriptorOpened live' kernel descriptor item raw owned)
    (whole : ItemWhole kernel item) (new : ∀ ptr, ptr = descriptor ∨ owned ptr → own ptr) :
    ∃ live'' last, (fat16Close descriptor).run kernel = .ok (0, last) ∧
      Grown region live live'' start last
        fun ptr => own ptr ∧ ¬ (ptr = descriptor ∨ owned ptr) := by
  have null := grown.invariant.null
  have apart : ∀ allocation ∈ live, ∀ ptr, ptr = descriptor ∨ owned ptr → allocation.ptr ≠ ptr :=
    fun allocation member ptr mine here =>
      grown.fresh allocation member (new _ (here ▸ mine))
  obtain ⟨entry, type, present, _⟩ := opened.made.tagged opened.notNull
  rcases whole _ present with there | ⟨directory, none⟩
  · obtain ⟨entry', type', inner, present', loaded, owns⟩ := opened.made.loaded opened.notNull null
      fun value here => by
        rw [present] at here
        cases here
        exact there
    obtain ⟨live'', last, run, grown', _⟩ := fat16Close_run grown opened.opens present' loaded
      fun allocation member => ⟨apart allocation member _ (.inl rfl),
        apart allocation member _ (.inr ((owns _).mpr (.inl rfl))),
        fun mine => apart allocation member _ (.inr ((owns _).mpr (.inr mine))) rfl⟩
    exact ⟨live'', last, run, grown'.congr fun ptr => by rw [owns]⟩
  · dsimp only at directory none
    subst directory none
    have alone : ∀ ptr, owned ptr ↔ ptr = item := by
      cases opened.made with
      | refused isNull _ => exact absurd isNull opened.notNull
      | uncopied _ present' _ =>
          rw [present] at present'
          cases present'
      | file _ _ present' _ _ =>
          rw [present] at present'
          cases present'
      | dangling _ _ _ _ owns => exact owns
      | directory _ _ _ _ _ present' loaded _ =>
          rw [present] at present'
          cases present'
          rw [loaded.present] at null
          cases null
    obtain ⟨live'', last, run, grown'⟩ := fat16Close_noDirectory grown opened.opens present
      fun allocation member => ⟨apart allocation member _ (.inl rfl),
        apart allocation member _ (.inr ((alone _).mpr rfl))⟩
    exact ⟨live'', last, run, grown'.congr fun ptr => by rw [alone]⟩

/-- What can be closed is whole. -/
theorem ItemWhole.of_close {res : Int} {opened : FatFileDescriptor}
    (run : (fat16Close descriptor).run kernel = .ok (res, final))
    (opens : kernel.objs descriptor = some (.fatFileDescriptor opened))
    (tagged : ∀ value, kernel.objs opened.item = some (.fatItem value) →
      value.type = fatItemTypeFile ∨ value.type = fatItemTypeDirectory) :
    ItemWhole kernel opened.item := by
  intro value present
  obtain ⟨_, last, freed, _⟩ := Exec.bind_eq_ok.mp run
  obtain ⟨_, _, opens', typed, freed⟩ := load_bind_eq_ok.mp freed
  rw [opens] at opens'
  cases opens'
  cases typed
  obtain ⟨_, middle, free, _⟩ := Exec.bind_eq_ok.mp freed
  obtain ⟨_, _, present', typed, free⟩ := load_bind_eq_ok.mp free
  rw [present] at present'
  cases present'
  cases typed
  rcases tagged value present with file | directory
  · rw [if_neg (by rw [file]; decide), if_pos file] at free
    obtain ⟨_, _, free, _⟩ := Exec.bind_eq_ok.mp free
    exact .inl (kfree_eq_ok free)
  · rw [if_pos directory] at free
    obtain ⟨_, _, free, _⟩ := Exec.bind_eq_ok.mp free
    by_cases none : value.pointer = 0
    · exact .inr ⟨directory, none⟩
    · rw [fat16FreeDirectory, if_neg none] at free
      obtain ⟨_, _, there, _⟩ := load_bind_eq_ok.mp free
      exact .inl (by rw [there]; rfl)

end Whole

section Opened

variable {region : KernelRegion} {live live₁ live₂ : List Allocation}
  {kernel parsed made freed next : Kernel} {volume : FatPrivate} {root drive first descriptor : Nat}
  {item mode : Nat} {names : List (List UInt8)} {ptrs : List Nat} {raw : List UInt8}
  {all owned : Nat → Prop}

/-- The item stays whole while the path is freed. -/
theorem itemWhole_freed
    (opened : PathOpened region live₁ live₂ parsed made descriptor item raw all owned)
    (path : PathParsed region live live₁ kernel parsed root drive first names ptrs)
    (kept : ∀ ptr, ¬ (ptr = root ∨ ptr ∈ ptrs) → freed.objs ptr = made.objs ptr) :
    ItemWhole made item ↔ ItemWhole freed item := by
  have same : ∀ ptr, all ptr → freed.objs ptr = made.objs ptr :=
    fun ptr mine => kept ptr (opened.notPath path ptr mine)
  unfold ItemWhole
  rw [same item (opened.within _ (opened.opened.made.owns_item opened.opened.notNull))]
  refine forall_congr' fun value => forall_congr' fun present => or_congr_left ?_
  constructor
  · intro there
    have mine := opened.opened.made.owns_pointer opened.grown.invariant.null present there
    rw [same _ (opened.within _ mine)]
    exact there
  · intro there
    by_cases inPath : value.pointer = root ∨ value.pointer ∈ ptrs
    · obtain ⟨allocation, member, same'⟩ := path.extended.held _ inPath
      rw [← same']
      exact opened.grown.invariant.held allocation (opened.grown.grown member)
    · rw [← kept _ inPath]
      exact there

/-- **What `fat16_open` has allocated.** Where its walk loses nothing it is the descriptor and the
item, which is whole if it had room, else there is more. -/
theorem fat16Open_losesNothing (inv : KernelInvariant region live kernel)
    (mounted : RootLive live volume kernel) (bounded : VolumeBounded volume kernel)
    (pathLive : PathLive live kernel first names ptrs)
    (run : (fat16Open diskstreamerRead first mode).run kernel = .ok (descriptor, next))
    (succeeds : isErr descriptor = false) :
    (LosesNothing kernel first mode → ∃ live' item raw all owned,
      PathOpened region live live' kernel next descriptor item raw all owned ∧
        (∀ ptr, all ptr → ptr = descriptor ∨ owned ptr) ∧
        (ItemWhole next item ↔ LastFits volume kernel first)) ∧
    (¬ LosesNothing kernel first mode → ∃ live' item raw all owned ptr,
      PathOpened region live live' kernel next descriptor item raw all owned ∧
        all ptr ∧ ¬ (ptr = descriptor ∨ owned ptr)) := by
  have reads := diskstreamerRead_readsStreams
  obtain ⟨readOnly, start, last, item, starts, entry, notNull, there, rfl⟩ :=
    fat16Open_walked inv run succeeds
  have grown := starts.grown inv
  have mounted' := mounted.grown grown
  have opens : ∀ {live' raw all owned}, WalkMade region (⟨descriptor, sizeofFatItem⟩ :: live) live'
      start last item raw all owned → PathOpened region live live' kernel
        (last.setObj descriptor (some (.fatFileDescriptor { item := item, pos := 0 }))) descriptor
        item raw (fun ptr => ptr = descriptor ∨ all ptr) owned := by
    intro live' raw all owned made
    obtain ⟨whole, opened⟩ := made.opened inv starts notNull there
    exact ⟨whole, opened, .inl rfl, fun ptr own => .inr (made.within ptr own)⟩
  constructor
  · intro nothing
    have loses : ∀ {here current directory part},
        Walked diskstreamerRead start first here current directory part →
          ¬ LosesItem here directory part := by
      rcases nothing with other | full | loses
      · exact absurd readOnly other
      · have counted := starts.placed.freeBlocks inv
        have oneBlock : blocksFor sizeofFatItem = 1 := by decide
        omega
      · exact loses starts.requested
    obtain ⟨contents, holding⟩ := mounted'.holding grown.invariant
    obtain ⟨live', raw, all, owned, made, owns⟩ := holding.losesNothing reads mounted' loses _ rfl
      (fun _ => rfl) (.root mounted'.volumeLive.fsPrivate) (pathLive.grown grown)
      (.inl ⟨rfl, rfl, rfl, entry⟩) fun _ => id
    have opened := opens made
    have other : item ≠ descriptor := fun same =>
      opened.opened.apart (same ▸ opened.opened.made.owns_item notNull)
    exact ⟨live', item, raw, _, owned, opened, fun ptr => .imp_right (owns ptr),
      (itemWhole_setObj there other).trans
        (fat16Open_whole_iff inv mounted bounded pathLive starts entry notNull loses)⟩
  · intro something
    unfold LosesNothing at something
    push Not at something
    obtain ⟨_, _, descriptor', start', requested, here, current, directory, part, walked, loses⟩ :=
      something
    rw [starts.requested] at requested
    obtain ⟨rfl, rfl⟩ := Prod.mk.inj (Except.ok.inj requested)
    obtain ⟨_, _, _, _, _, _, point⟩ :=
      walked.point reads grown.invariant mounted' (pathLive.grown grown)
    obtain ⟨live', raw, all, owned, ptr, made, taken, lost⟩ := loses.loses reads mounted'
      point.holding point.atRoot point.left (point.completes entry)
    refine ⟨live', item, raw, _, owned, ptr, opens made, .inr taken, fun mine => ?_⟩
    rcases mine with rfl | mine
    · exact made.grown.fresh ⟨ptr, sizeofFatItem⟩ List.mem_cons_self taken
    · exact lost mine

end Opened

section Failure

variable {region : KernelRegion} {live live₁ live₂ : List Allocation}
  {kernel parsed made next : Kernel} {volume : FatPrivate} {filename modeStr : List UInt8}
  {root first descriptor item : Nat} {names : List (List UInt8)} {ptrs : List Nat}
  {raw : List UInt8} {all owned : Nat → Prop}

/-- In a full table, a whole item of a walk that has lost nothing is closed, and all is as
before. -/
theorem PathOpened.undone
    (opened : PathOpened region live₁ live₂ parsed made descriptor item raw all owned)
    (path : PathParsed region live live₁ kernel parsed root 0 first names ptrs) (notNull : root ≠ 0)
    (tight : ∀ ptr, all ptr → ptr = descriptor ∨ owned ptr) (whole : ItemWhole made item) :
    ∃ next, (fopenCleanUp {
        res := -enomem
        rootPath := root
        disk := .disk
        descriptorPrivateData := descriptor }).run made = .ok (0, next) ∧
      next.fileDescriptors = kernel.fileDescriptors ∧ SameLive region live next := by
  obtain ⟨live', freed, free, grown, kept⟩ := path.free opened.grown
  have still := opened.freed path grown kept
  obtain ⟨live'', next, close, grown'⟩ := fat16Close_whole grown still
    ((itemWhole_freed opened path kept).mp whole) (opened.stays path)
  refine ⟨next, fopenCleanUp_run notNull rfl rfl free
    (.inr ⟨still.descriptorNotNull grown.invariant.null, close⟩), by rw [grown'.globals],
    (grown'.congr fun ptr => iff_false_intro ?_).sameLive⟩
  rintro ⟨⟨inPath | mine, notPath⟩, other⟩
  · exact notPath inPath
  · exact other (tight ptr mine)

/-- What the walk has lost is left. -/
theorem PathOpened.leaves
    (opened : PathOpened region live₁ live₂ parsed made descriptor item raw all owned)
    (path : PathParsed region live live₁ kernel parsed root 0 first names ptrs) (notNull : root ≠ 0)
    {ptr : Nat} (taken : all ptr) (lost : ¬ (ptr = descriptor ∨ owned ptr)) {res : Int}
    (run : (fopenCleanUp {
        res := -enomem
        rootPath := root
        disk := .disk
        descriptorPrivateData := descriptor }).run made = .ok (res, next)) :
    ¬ SameLive region live next := by
  intro same
  obtain ⟨live', freed, free, grown, kept⟩ := path.free opened.grown
  have still := opened.freed path grown kept
  obtain ⟨_, close⟩ := fopenCleanUp_closes notNull rfl
    (still.descriptorNotNull grown.invariant.null) rfl free run
  obtain ⟨live'', grown'⟩ := fat16Close_grown grown still (opened.stays path) close
  have here := And.intro (Or.inr taken : (ptr = root ∨ ptr ∈ ptrs) ∨ all ptr)
    (opened.notPath path ptr taken)
  refine same.keepsNothing grown' ptr ⟨here, fun freed => ?_⟩
  rcases closeBlocks_apart still grown.invariant ptr freed with mine | mine | unheld
  · exact lost (.inl mine)
  · exact lost (.inr mine)
  · obtain ⟨allocation, member, same⟩ := grown.held ptr here
    exact unheld allocation member same

/-- What a completed end of `fopen` has closed was whole. -/
theorem PathOpened.whole
    (opened : PathOpened region live₁ live₂ parsed made descriptor item raw all owned)
    (path : PathParsed region live live₁ kernel parsed root 0 first names ptrs) (notNull : root ≠ 0)
    {res : Int}
    (run : (fopenCleanUp {
        res := -enomem
        rootPath := root
        disk := .disk
        descriptorPrivateData := descriptor }).run made = .ok (res, next)) :
    ItemWhole made item := by
  obtain ⟨live', freed, free, grown, kept⟩ := path.free opened.grown
  have still := opened.freed path grown kept
  obtain ⟨_, close⟩ := fopenCleanUp_closes notNull rfl
    (still.descriptorNotNull grown.invariant.null) rfl free run
  refine (itemWhole_freed opened path kept).mpr (.of_close close still.opens fun value present => ?_)
  obtain ⟨_, _, present', tagged⟩ := still.made.tagged still.notNull
  rw [present] at present'
  cases present'
  exact tagged.imp_right And.left

theorem AsksFilesystem.path (asks : AsksFilesystem kernel parsed filename modeStr root first)
    (inv : KernelInvariant region live kernel) :
    ∃ live₁ names ptrs, PathParsed region live live₁ kernel parsed root 0 first names ptrs := by
  obtain ⟨live₁, drive, first', names, ptrs, path⟩ :=
    pathparserParse_parsed inv asks.parse asks.notNull
  have same := path.present.symm.trans asks.present
  simp only [Option.some.injEq, Obj.pathRoot.injEq, PathRoot.mk.injEq] at same
  obtain ⟨zero, rfl⟩ := same
  obtain rfl : drive = 0 := by omega
  exact ⟨live₁, names, ptrs, path⟩

/-- A call that undoes what it did failed after the filesystem had opened the item. -/
theorem FailsCleanly.undoesOpen {outcome : OpenOutcome}
    (clean : FailsCleanly region live kernel outcome made)
    (inv : KernelInvariant region live kernel) (mounted : RootLive live volume kernel)
    (bounded : VolumeBounded volume kernel) (filesystem : kernel.disk.filesystem = some .fat16)
    (size : kernel.fileDescriptors.length = peachosMaxFileDescriptors)
    (run : (fopenOutcome diskstreamerRead filename modeStr).run kernel = .ok (outcome, made)) :
    UndoesOpen volume kernel filename modeStr := by
  intro parsed root first asks
  obtain ⟨closes, next, undone, _, same⟩ := clean
  obtain ⟨live₁, names, ptrs, path⟩ := asks.path inv
  have grown := path.extended.toGrown
  have mounted' := mounted.grown grown
  rw [fopenOutcome_onDisk asks.parse asks.notNull asks.present asks.pathNotEmpty
    (by rw [path.extended.globals, filesystem]), fopenOnDisk, if_neg asks.valid] at run
  obtain ⟨descriptor, opened, opening, rest⟩ := Exec.bind_eq_ok.mp run
  have succeeds : isErr descriptor = false := by
    by_contra error
    rw [Bool.not_eq_false] at error
    rw [error, if_pos rfl] at rest
    obtain ⟨rfl, rfl⟩ := Prod.mk.inj (Except.ok.inj rest)
    have notNull : descriptor ≠ 0 := by
      rintro rfl
      cases error
    have noError := closes ⟨show DiskPtr.disk ≠ .null by decide, notNull⟩
    exact absurd error (by rw [noError]; decide)
  refine ⟨(fat16Open_succeeds_iff path.extended.invariant mounted' path.live opening).mp succeeds,
    fun full => ?_⟩
  obtain ⟨tight, lost⟩ := fat16Open_losesNothing path.extended.invariant mounted'
    (bounded.grown grown) path.live opening succeeds
  have table : opened.fileDescriptors = kernel.fileDescriptors := by
    by_cases nothing : LosesNothing parsed first (fileGetModeByString modeStr)
    · obtain ⟨_, _, _, _, _, opened, _⟩ := tight nothing
      rw [(grown.trans opened.grown).globals]
    · obtain ⟨_, _, _, _, _, _, opened, _⟩ := lost nothing
      rw [(grown.trans opened.grown).globals]
  have slot := fileNewDescriptor_full (by rw [table, size]) (by rw [table]; exact full)
  rw [succeeds, if_neg (by decide), Exec.bind_of_ok slot] at rest
  dsimp only at rest
  rw [if_pos (show -enomem < 0 by decide)] at rest
  obtain ⟨rfl, rfl⟩ := Prod.mk.inj (Except.ok.inj rest)
  by_cases nothing : LosesNothing parsed first (fileGetModeByString modeStr)
  · obtain ⟨_, _, _, _, _, opened, _, whole⟩ := tight nothing
    exact ⟨nothing, whole.mp (opened.whole path asks.notNull undone)⟩
  · obtain ⟨_, _, _, _, _, ptr, opened, taken, other⟩ := lost nothing
    exact absurd same (opened.leaves path asks.notNull taken other undone)

/-- There is one case for each way a call comes to its label `out`. -/
theorem UndoesOpen.failsCleanly {outcome : OpenOutcome}
    (undoes : UndoesOpen volume kernel filename modeStr)
    (inv : KernelInvariant region live kernel) (mounted : RootLive live volume kernel)
    (bounded : VolumeBounded volume kernel) (filesystem : kernel.disk.filesystem = some .fat16)
    (size : kernel.fileDescriptors.length = peachosMaxFileDescriptors)
    (run : (fopenOutcome diskstreamerRead filename modeStr).run kernel = .ok (outcome, made))
    (failed : outcome.res < 0) : FailsCleanly region live kernel outcome made := by
  have reaches := fopenOutcome_reaches diskstreamerRead_readsStreams inv mounted filesystem size run
  cases reaches with
  | refused _ noPath notOpened noSlot =>
      refine ⟨fun both => absurd notOpened both.2, _, ?_, rfl, (Grown.refl inv).sameLive⟩
      rw [fopenCleanUp]
      dsimp only
      rw [if_neg (not_not.mpr noPath), if_neg (fun both => both.2 notOpened),
        if_neg (not_not.mpr noSlot), Exec.run_pure]
  | parsed _ notNull path notOpened noSlot =>
      obtain ⟨live', freed, free, grown, _⟩ := path.free (.refl path.extended.invariant)
      refine ⟨fun both => absurd notOpened both.2, freed, ?_, by rw [grown.globals],
        (grown.congr fun ptr => iff_false_intro fun both => both.2 (both.1.resolve_right id))
          |>.sameLive⟩
      rw [fopenCleanUp]
      dsimp only
      rw [if_pos notNull, Exec.bind_of_ok free, if_neg (fun both => both.2 notOpened),
        if_neg (not_not.mpr noSlot), Exec.run_pure]
  | error asks opening path _ error _ =>
      have succeeds := (fat16Open_succeeds_iff path.extended.invariant
        (mounted.grown path.extended.toGrown) path.live opening).mpr (undoes asks).1
      exact absurd error (by rw [succeeds]; decide)
  | full asks opening path _ full =>
      obtain ⟨finds, undo⟩ := undoes asks
      obtain ⟨nothing, fits⟩ := undo full
      have grown := path.extended.toGrown
      have succeeds := (fat16Open_succeeds_iff path.extended.invariant (mounted.grown grown)
        path.live opening).mpr finds
      obtain ⟨_, _, _, _, _, opened, tight, whole⟩ := (fat16Open_losesNothing
        path.extended.invariant (mounted.grown grown) (bounded.grown grown) path.live opening
        succeeds).1 nothing
      exact ⟨fun _ => succeeds, opened.undone path asks.notNull tight (whole.mpr fits)⟩
  | opened _ _ _ _ => exact absurd failed (not_lt.mpr (Int.natCast_nonneg _))

/-- **What a failed `fopen` undoes.** -/
theorem failsCleanly_iff {outcome : OpenOutcome} (inv : KernelInvariant region live kernel)
    (mounted : RootLive live volume kernel) (bounded : VolumeBounded volume kernel)
    (filesystem : kernel.disk.filesystem = some .fat16)
    (size : kernel.fileDescriptors.length = peachosMaxFileDescriptors)
    (run : (fopenOutcome diskstreamerRead filename modeStr).run kernel = .ok (outcome, made))
    (failed : outcome.res < 0) :
    FailsCleanly region live kernel outcome made ↔
      UndoesOpen volume kernel filename modeStr :=
  ⟨fun clean => clean.undoesOpen inv mounted bounded filesystem size run,
    fun undoes => undoes.failsCleanly inv mounted bounded filesystem size run failed⟩

end Failure

/-- Mount the volume, open the file `E/B` and clean up after that, in a full table: what `fopen` has
at its label `out`, and whether the heap and the table are as before. -/
def openFull : K (List Bool) := do
  let _ ← fat16Resolve diskstreamerRead
  let heap ← Exec.read Kernel.heap
  let outcome ← fopenOutcome diskstreamerRead [48, 58, 47, 69, 47, 66] [114]
  let res ← fopenCleanUp outcome
  let heap' ← Exec.read Kernel.heap
  let table ← Exec.read Kernel.fileDescriptors
  pure [decide (outcome.res = -enomem), decide (outcome.descriptorPrivateData ≠ 0),
    isErr outcome.descriptorPrivateData, decide (res = 0), decide (heap' = heap),
    decide (table = List.replicate peachosMaxFileDescriptors 1)]

theorem openFull_run : (openFull.run { tableKernel with
    fileDescriptors := List.replicate peachosMaxFileDescriptors 1 }).map Prod.fst =
      .ok [true, true, false, true, true, true] := by
  decide +kernel

/-- In a full table the file in the directory is opened and closed again. -/
theorem failsCleanly_full : ∃ live start volume outcome made,
    0 ∉ start.fileDescriptors ∧
      (fopenOutcome diskstreamerRead [48, 58, 47, 69, 47, 66] [114]).run start =
        .ok (outcome, made) ∧ outcome.res < 0 ∧ outcome.descriptorPrivateData ≠ 0 ∧
      FailsCleanly wideHeapRegion live start outcome made ∧
      UndoesOpen volume start [48, 58, 47, 69, 47, 66] [114] := by
  obtain ⟨live, start, volume, mount, ready, root, bounded, table⟩ :=
    tableKernel_ready (List.replicate peachosMaxFileDescriptors 1)
  obtain ⟨_, _, mount', evaluated⟩ := result_of_bind openFull_run
  rw [mount] at mount'
  cases mount'
  rw [Exec.bind_of_ok (Exec.run_read _ _)] at evaluated
  obtain ⟨outcome, made, reached, evaluated⟩ := result_of_bind evaluated
  obtain ⟨res, next, cleaned, evaluated⟩ := result_of_bind evaluated
  rw [Exec.bind_of_ok (Exec.run_read _ _), Exec.bind_of_ok (Exec.run_read _ _)] at evaluated
  have results := Except.ok.inj evaluated
  simp only [List.cons.injEq, decide_eq_true_eq, and_true] at results
  obtain ⟨failed, notNull, opened, rfl, heap, same⟩ := results
  have size : start.fileDescriptors.length = peachosMaxFileDescriptors := by
    rw [table, List.length_replicate]
  have negative : outcome.res < 0 := failed ▸ show -enomem < 0 by decide
  have reaches := fopenOutcome_reaches diskstreamerRead_readsStreams ready.invariant root
    ready.filesystem size reached
  obtain ⟨_, _, grown⟩ := fopenCleanUp_grown ready.invariant reaches negative cleaned
  have cleanly : FailsCleanly wideHeapRegion live start outcome made :=
    ⟨fun _ => opened, next, cleaned, same.trans table.symm,
      grown.sameLive_of_heap ready.invariant heap⟩
  refine ⟨live, start, volume, outcome, made, ?_, reached, negative, notNull, cleanly,
    (failsCleanly_iff ready.invariant root bounded ready.filesystem size reached negative).mp
      cleanly⟩
  rw [table]
  exact fun free => absurd (List.eq_of_mem_replicate free) (by decide)

/-- Mount the volume and open `0:/X`, which it does not have: what `fopen` has at its label `out`,
and whether it returns. -/
def openMissing : K (List Bool) := do
  let _ ← fat16Resolve diskstreamerRead
  let whole ← foreseen (fopen diskstreamerRead [48, 58, 47, 88] [114])
  let outcome ← fopenOutcome diskstreamerRead [48, 58, 47, 88] [114]
  pure [whole.isNone, decide (outcome.res < 0), decide (outcome.disk = .disk),
    decide (outcome.descriptorPrivateData ≠ 0), isErr outcome.descriptorPrivateData]

theorem openMissing_run : (openMissing.run tableKernel).map Prod.fst =
    .ok [true, true, true, true, true] := by
  decide +kernel

/-- **A missing file.** The filesystem is asked to close its own error, and the call does not
return. -/
theorem failsCleanly_missing : ∃ live start volume outcome made,
    KernelInvariant wideHeapRegion live start ∧ RootLive live volume start ∧
      start.disk.filesystem = some .fat16 ∧
      start.fileDescriptors.length = peachosMaxFileDescriptors ∧
      (fopenOutcome diskstreamerRead [48, 58, 47, 88] [114]).run start = .ok (outcome, made) ∧
      outcome.res < 0 ∧ ¬ FailsCleanly wideHeapRegion live start outcome made ∧
      ¬ ∃ res next, (fopen diskstreamerRead [48, 58, 47, 88] [114]).run start =
        .ok (res, next) := by
  obtain ⟨live, start, volume, mount, inv, root, mounted, empty⟩ := tableKernel_mounted
  obtain ⟨_, _, mount', evaluated⟩ := result_of_bind openMissing_run
  rw [mount] at mount'
  cases mount'
  rw [Exec.bind_of_ok (foreseen_run _ _)] at evaluated
  obtain ⟨outcome, made, reached, evaluated⟩ := result_of_bind evaluated
  have results := Except.ok.inj evaluated
  simp only [List.cons.injEq, decide_eq_true_eq, and_true] at results
  obtain ⟨stopped, failed, onDisk, notNull, error⟩ := results
  refine ⟨live, start, volume, outcome, made, inv, root, mounted,
    by rw [empty, List.length_replicate], reached, failed, fun clean => ?_, fun ⟨_, _, run⟩ => ?_⟩
  · have opens := clean.1 ⟨by rw [onDisk]; decide, notNull⟩
    rw [error] at opens
    cases opens
  · rw [run] at stopped
    cases stopped

end Peachos
