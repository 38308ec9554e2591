import Peachos.Fs.MissingComponent
import Peachos.Fs.SubdirectoryLoad
import Peachos.Fs.WalkRuns

/-! # What a failed open leaves allocated

A lookup makes an item for each entry that matches and returns the last one, and a walk that comes
to a regular file before the end of the path returns null without freeing its item. Nothing else is
lost: `sameLive_iff`.
-/

namespace Peachos

open CInt Window

/-- The lookup of the name of the part makes an item that the walk loses: of an entry that another
match comes after, or of a regular file with more of the path to go. -/
def LosesItem (kernel : Kernel) (directory : FatDirectory) (part : Nat) : Prop :=
  1 ≤ kernel.heap.freeBlocks ∧ ∃ value name contents,
    kernel.objs part = some (.pathPart value) ∧ kernel.objs value.part = some (.bytes name) ∧
    kernel.objs directory.item = some (.bytes contents) ∧
    ((∃ j k, j < k ∧ Matches directory contents name j ∧ Matches directory contents name k) ∨
      value.next ≠ 0 ∧ ∃ k, Matches directory contents name k ∧
        (FatDirectoryItem.decode (itemBytes contents k)).attributes &&& fatFileSubdirectory = 0)

/-- The same allocations are live. -/
def SameLive (region : KernelRegion) (live : List Allocation) (next : Kernel) : Prop :=
  ∃ live', KernelInvariant region live' next ∧ ∀ allocation, allocation ∈ live' ↔ allocation ∈ live

/-- No lookup that `fat16_open` makes loses an item; without a block for the descriptor it makes
none. -/
def LosesNothing (kernel : Kernel) (path mode : Nat) : Prop :=
  mode ≠ fileModeRead ∨ kernel.heap.freeBlocks = 0 ∨ ∀ {descriptor start},
    (kmalloc sizeofFatItem (.fatFileDescriptor {})).run kernel = .ok (descriptor, start) →
      ∀ {here current directory part},
        Walked diskstreamerRead start path here current directory part →
          ¬ LosesItem here directory part

section Rest

variable {region : KernelRegion} {live live' : List Allocation}
  {start kernel last : Kernel} {volume : FatPrivate} {read : StreamRead}
  {path current part item result : Nat} {directory : FatDirectory} {contents : List UInt8}
  {names : List (List UInt8)} {ptrs : List Nat} {all mine : Nat → Prop}

/-- A pointer that the walk has lost stays lost. -/
theorem Holding.loses (reads : ReadsStreams read) (root : RootLive live volume start) (count : Nat) :
    ∀ {live' : List Allocation} {kernel : Kernel} {current part : Nat} {directory : FatDirectory}
      {contents : List UInt8} {names : List (List UInt8)} {ptrs : List Nat} {all mine : Nat → Prop}
      {ptr : Nat}, names.length = count →
      Holding region live live' start kernel all mine current directory contents →
      (current = 0 → directory = volume.rootDirectory) → PathLive live start part names ptrs →
      Completes read start path kernel current directory part result last →
      all ptr → ¬ mine ptr → ∃ live'' raw all' owned,
        WalkMade region live live'' start last result raw all' owned ∧ all' ptr ∧ ¬ owned ptr := by
  induction count with
  | zero =>
      intro _ _ _ _ _ _ names _ _ _ _ length holding atRoot pathLive run
      obtain ⟨_, _, _, _, _, _, _, _, _, _, _, _, _, shorter, _⟩ :=
        holding.turn reads root atRoot pathLive run
      omega
  | succ count ih =>
      intro _ _ _ _ _ _ names _ _ mine ptr length holding atRoot pathLive run taken other
      obtain ⟨_, _, next, value, _, item, add, owned, _, rest, _, turn, left, shorter, outcome⟩ :=
        holding.turn reads root atRoot pathLive run
      rcases outcome with ⟨_, rfl, rfl⟩ | ⟨_, _, rfl, rfl⟩ | ⟨_, below, reached, run⟩
      · exact ⟨_, _, _, _, turn.stepped.walkMade holding.within, ⟨.inl taken, other⟩, fun own =>
          turn.stepped.apart _ (turn.stepped.within _ own) taken⟩
      · exact ⟨_, _, _, _, turn.stepped.walkMade_null, ⟨.inl taken, other⟩, id⟩
      · obtain ⟨_, holding'⟩ := turn.stepped.holding holding.within reached
        exact ih (by omega) holding'
          (fun null => absurd null (reached.notNull holding'.grown.invariant.null)) left run
          ⟨.inl taken, other⟩ fun own =>
            turn.stepped.apart _ (turn.stepped.within _ own) taken

/-- The lookup that loses an item. -/
theorem LosesItem.loses (loses : LosesItem kernel directory part) (reads : ReadsStreams read)
    (root : RootLive live volume start)
    (holding : Holding region live live' start kernel all mine current directory contents)
    (atRoot : current = 0 → directory = volume.rootDirectory)
    (pathLive : PathLive live start part names ptrs)
    (run : Completes read start path kernel current directory part result last) :
    ∃ live'' raw all' owned ptr, WalkMade region live live'' start last result raw all' owned ∧
      all' ptr ∧ ¬ owned ptr := by
  obtain ⟨free, value, name, contents, here, named, buffer, lost⟩ := loses
  have buffer' := holding.target.buffer
  rw [buffer] at buffer'
  cases buffer'
  obtain ⟨live'', _, next, _, _, item, add, owned, raw, rest, _, turn, left, _, outcome⟩ :=
    holding.turn reads root atRoot pathLive run
  have here' := turn.here
  rw [here] at here'
  cases here'
  have named' := turn.named
  rw [named] at named'
  cases named'
  have stepped := turn.stepped
  have null := stepped.grown.invariant.null
  have kept : ∀ ptr, add ptr → (all ptr ∨ add ptr) ∧ ¬ mine ptr :=
    fun ptr new => ⟨.inr new, fun own => stepped.apart ptr new (holding.within ptr own)⟩
  rcases stepped.tight with ⟨_, madeFor⟩ | ⟨_, ptr, new, other⟩
  · obtain ⟨more, k, matching, regular⟩ :=
      lost.resolve_left fun several => madeFor.not_several ⟨free, several⟩
    rcases madeFor with ⟨_, none | full⟩ | ⟨notNull, _, k', _, only, rfl⟩
    · exact absurd matching (none k)
    · omega
    · rw [only k matching] at regular
      have own := kept item (stepped.within _ (stepped.made.owns_item notNull))
      rcases outcome with ⟨isNull | ends, _, _⟩ | ⟨_, _, rfl, rfl⟩ | ⟨_, below, reached, _⟩
      · exact absurd isNull notNull
      · exact absurd ends more
      · exact ⟨_, _, _, _, item, stepped.walkMade_null, own, id⟩
      · obtain ⟨_, present, _⟩ := reached
        exact absurd rfl ((stepped.made.isFile present null).mpr regular)
  · rcases outcome with ⟨_, rfl, rfl⟩ | ⟨_, _, rfl, rfl⟩ | ⟨_, below, reached, run⟩
    · exact ⟨_, _, _, _, ptr, stepped.walkMade holding.within, kept ptr new, other⟩
    · exact ⟨_, _, _, _, ptr, stepped.walkMade_null, kept ptr new, id⟩
    · obtain ⟨_, holding'⟩ := stepped.holding holding.within reached
      obtain ⟨live₁, raw, all', owned', made, taken⟩ := holding'.loses reads root _ rfl
        (fun null' => absurd null' (reached.notNull null)) left run (kept ptr new) other
      exact ⟨live₁, raw, all', owned', ptr, made, taken⟩

/-- Without such a lookup the walk keeps the item that it returns and nothing else. -/
theorem Holding.losesNothing (reads : ReadsStreams read) (root : RootLive live volume start)
    (loses : ∀ {here : Kernel} {current : Nat} {directory : FatDirectory} {part : Nat},
      Walked read start path here current directory part → ¬ LosesItem here directory part)
    (count : Nat) :
    ∀ {live' : List Allocation} {kernel : Kernel} {current part : Nat} {directory : FatDirectory}
      {contents : List UInt8} {names : List (List UInt8)} {ptrs : List Nat}
      {all mine : Nat → Prop}, names.length = count →
      Holding region live live' start kernel all mine current directory contents →
      (current = 0 → directory = volume.rootDirectory) →
      Walked read start path kernel current directory part →
      PathLive live start part names ptrs →
      Completes read start path kernel current directory part result last →
      (∀ ptr, all ptr → mine ptr) → ∃ live'' raw all' owned,
        WalkMade region live live'' start last result raw all' owned ∧
          ∀ ptr, all' ptr → owned ptr := by
  induction count with
  | zero =>
      intro _ _ _ _ _ _ names _ _ _ length holding atRoot _ pathLive run
      obtain ⟨_, _, _, _, _, _, _, _, _, _, _, _, _, shorter, _⟩ :=
        holding.turn reads root atRoot pathLive run
      omega
  | succ count ih =>
      intro _ kernel _ part directory contents names _ all mine length holding atRoot walked pathLive
        run tight
      obtain ⟨live'', found, next, value, name, item, add, owned, raw, rest, _, turn, left, shorter,
        outcome⟩ := holding.turn reads root atRoot pathLive run
      have stepped := turn.stepped
      have null := stepped.grown.invariant.null
      have lost : ¬ (1 ≤ kernel.heap.freeBlocks ∧
          ((∃ j k, j < k ∧ Matches directory contents name j ∧ Matches directory contents name k) ∨
            value.next ≠ 0 ∧ ∃ k, Matches directory contents name k ∧
              (FatDirectoryItem.decode (itemBytes contents k)).attributes &&&
                fatFileSubdirectory = 0)) := fun lost =>
        loses walked ⟨lost.1, value, name, contents, turn.here, turn.named, holding.target.buffer,
          lost.2⟩
      rcases stepped.tight with ⟨owns, madeFor⟩ | ⟨⟨free, several⟩, _⟩
      · rcases outcome with ⟨_, rfl, rfl⟩ | ⟨more, ⟨value', present, regular⟩, _, _⟩ |
          ⟨more, below, reached, run⟩
        · refine ⟨live'', _, _, _, stepped.walkMade holding.within, ?_⟩
          rintro ptr ⟨old | new, other⟩
          · exact absurd (tight ptr old) other
          · exact owns ptr new
        · rcases madeFor with ⟨isNull, _⟩ | ⟨_, free, k, matching, _, rfl⟩
          · rw [isNull, null] at present
            cases present
          · exact absurd ⟨free, .inr ⟨more, k, matching,
              (stepped.made.isFile present null).mp regular⟩⟩ lost
        · obtain ⟨_, holding'⟩ := stepped.holding holding.within reached
          refine ih (by omega) holding' (fun null' => absurd null' (reached.notNull null))
            (.down walked turn.here turn.named turn.search turn.freed reached more) left run ?_
          rintro ptr ⟨old | new, other⟩
          · exact absurd (tight ptr old) other
          · exact owns ptr new
      · exact absurd ⟨free, .inl several⟩ lost

end Rest

section Error

variable {region : KernelRegion} {live : List Allocation} {kernel start next : Kernel}
  {volume : FatPrivate} {read : StreamRead} {path descriptor mode value : Nat}
  {names : List (List UInt8)} {ptrs : List Nat}

/-- The ways in which `fat16_open` fails. -/
theorem fat16Open_failed (inv : KernelInvariant region live kernel)
    (run : (fat16Open read path mode).run kernel = .ok (value, next)) (failed : isErr value = true) :
    mode ≠ fileModeRead ∧ next = kernel ∨ mode = fileModeRead ∧
      (kernel.heap.freeBlocks = 0 ∧ next = kernel ∨ ∃ descriptor start last,
        OpenStarts region live kernel descriptor start ∧
          (fat16GetDirectoryEntry read path).run start = .ok (0, last)) := by
  by_cases readOnly : mode = fileModeRead
  swap
  · rw [fat16Open, if_pos readOnly] at run
    cases run
    exact .inl ⟨readOnly, rfl⟩
  refine .inr ⟨readOnly, ?_⟩
  rw [fat16Open, if_neg (not_not.mpr readOnly)] at run
  obtain ⟨descriptor, start, requested, rest⟩ := Exec.bind_eq_ok.mp run
  clear run
  rcases openStarts_or_refused inv requested with ⟨rfl, rfl⟩ | starts
  · rw [if_pos rfl] at rest
    cases rest
    refine .inl ⟨?_, rfl⟩
    by_contra some
    obtain ⟨_, _, requested', placed, _⟩ := kmalloc_lowest inv
      (show blocksFor sizeofFatItem = 1 by decide) (Nat.pos_of_ne_zero some)
      (.fatFileDescriptor {})
    rw [show (kmalloc sizeofFatItem (.fatFileDescriptor {})).run next = _ from requested]
      at requested'
    cases requested'
    exact placed.notNull rfl
  · refine .inr ⟨descriptor, start, ?_⟩
    rw [if_neg starts.placed.notNull] at rest
    obtain ⟨item, last, entry, rest⟩ := Exec.bind_eq_ok.mp rest
    obtain ⟨_, _, _, _, rest⟩ := load_bind_eq_ok.mp rest
    obtain ⟨_, rest⟩ := store_bind_eq_ok.mp rest
    by_cases null : item = 0
    · rw [null] at entry
      exact ⟨last, starts, entry⟩
    · -- the descriptor lies below 2 GiB, so it is no error
      rw [if_neg null] at rest
      obtain ⟨_, _, _, _, rest⟩ := load_bind_eq_ok.mp rest
      obtain ⟨_, rest⟩ := store_bind_eq_ok.mp rest
      cases rest
      have below : value + _ ≤ 2147483648 := starts.placed.invariant.below List.mem_cons_self
      have oneBlock : blocksFor sizeofFatItem = 1 := by decide
      unfold isErr i32 at failed
      rw [oneBlock] at below
      unfold peachosHeapBlockSize at below
      have negative := of_decide_eq_true failed
      omega

/-- Where the same allocations are live, none of those made meanwhile is left. -/
theorem SameLive.keepsNothing {last : Kernel} {live' : List Allocation} {all : Nat → Prop}
    (same : SameLive region live last) (grown : Grown region live live' kernel last all) (ptr : Nat) :
    ¬ all ptr := by
  intro taken
  obtain ⟨live'', inv, members⟩ := same
  obtain ⟨allocation, member, rfl⟩ := grown.invariant.live_iff inv (grown.held ptr taken)
  exact grown.fresh allocation ((members allocation).mp member) taken

theorem Grown.sameLive {last : Kernel} {live' : List Allocation}
    (grown : Grown region live live' kernel last fun _ => False) : SameLive region live last :=
  ⟨live', grown.invariant, fun allocation =>
    ⟨fun member => (grown.only allocation member).resolve_right id, fun member =>
      grown.grown member⟩⟩

/-- What has grown and has the same heap has the same live allocations. -/
theorem Grown.sameLive_of_heap {last : Kernel} {live' : List Allocation} {all : Nat → Prop}
    (grown : Grown region live live' kernel last all) (inv : KernelInvariant region live kernel)
    (same : last.heap = kernel.heap) : SameLive region live last := by
  refine ⟨live', grown.invariant, fun allocation => ⟨fun member => ?_, fun member =>
    grown.grown member⟩⟩
  have inv' := grown.invariant.heap
  have first : (region.extent allocation).Covers (region.extent allocation).start :=
    ⟨le_rfl, Nat.lt_add_of_pos_right (inv'.extent_nonempty member)⟩
  have inside := (Nat.lt_add_of_pos_right (inv'.extent_nonempty member)).trans_le
    (inv'.extent_inside member)
  have taken : ¬ last.heap.isFree (region.extent allocation).start = true :=
    fun free => (inv'.isFree_iff inside).mp free allocation member first
  rw [same] at taken inside
  rw [inv.heap.isFree_iff inside] at taken
  push Not at taken
  obtain ⟨other, member', covers⟩ := taken
  have symmetric : Std.Symm fun one another : Allocation =>
      (region.extent one).Apart (region.extent another) := ⟨fun _ _ => Extent.Apart.symm⟩
  by_contra missing
  exact ((List.pairwise_map.mp inv'.arranged.apart).forall member (grown.grown member')
    fun same => missing (same ▸ member')).not_covers first covers

/-- A failed open that has lost an item. -/
theorem LosesItem.not_sameLive (reads : ReadsStreams read) (inv : KernelInvariant region live kernel)
    (root : RootLive live volume kernel) (pathLive : PathLive live kernel path names ptrs)
    (starts : OpenStarts region live kernel descriptor start) {last : Kernel}
    (entry : (fat16GetDirectoryEntry read path).run start = .ok (0, last))
    (run : (fat16Open read path fileModeRead).run kernel = .ok (value, next))
    {here : Kernel} {current part : Nat} {directory : FatDirectory}
    (walked : Walked read start path here current directory part)
    (loses : LosesItem here directory part) : ¬ SameLive region live next := by
  intro same
  have grown := starts.grown inv
  obtain ⟨_, _, _, _, _, _, point⟩ :=
    walked.point reads grown.invariant (root.grown grown) (pathLive.grown grown)
  obtain ⟨_, _, all, _, ptr, made, taken, _⟩ := loses.loses reads (root.grown grown) point.holding
    point.atRoot point.left (point.completes entry)
  obtain ⟨_, _, run', whole⟩ := fat16Open_null inv starts entry made.grown
  rw [run] at run'
  cases run'
  exact same.keepsNothing whole ptr taken

/-- **When a failed open leaves the same allocations.** -/
theorem sameLive_iff (inv : KernelInvariant region live kernel)
    (root : RootLive live volume kernel) (pathLive : PathLive live kernel path names ptrs)
    (run : (fat16Open diskstreamerRead path mode).run kernel = .ok (value, next))
    (failed : isErr value = true) :
    SameLive region live next ↔ LosesNothing kernel path mode := by
  have reads := diskstreamerRead_readsStreams
  have unchanged : SameLive region live kernel := (Grown.refl inv).sameLive
  rcases fat16Open_failed inv run failed with ⟨readOnly, rfl⟩ | ⟨rfl, ⟨full, rfl⟩ |
    ⟨descriptor, start, last, starts, entry⟩⟩
  · exact iff_of_true unchanged (.inl readOnly)
  · exact iff_of_true unchanged (.inr (.inl full))
  constructor
  · refine fun same => .inr (.inr fun {descriptor' start'} requested {here current directory part}
      walked loses => ?_)
    rw [starts.requested] at requested
    cases requested
    exact loses.not_sameLive reads inv root pathLive starts entry run walked same
  · intro nothing
    have grown := starts.grown inv
    have root' := root.grown grown
    have loses : ∀ {here current directory part},
        Walked diskstreamerRead start path here current directory part →
          ¬ LosesItem here directory part := by
      rcases nothing with other | full | loses
      · exact absurd rfl other
      · have counted := starts.placed.freeBlocks inv
        have oneBlock : blocksFor sizeofFatItem = 1 := by decide
        omega
      · exact loses starts.requested
    obtain ⟨contents, holding⟩ := root'.holding grown.invariant
    obtain ⟨live', raw, all, owned, made, owns⟩ := holding.losesNothing reads root' loses _ rfl
      (fun _ => rfl) (.root root'.volumeLive.fsPrivate) (pathLive.grown grown)
      (.inl ⟨rfl, rfl, rfl, entry⟩) fun _ => id
    have none : ∀ ptr, all ptr ↔ False := fun ptr =>
      iff_false_intro fun here => made.made.unowned made.grown.invariant.null ptr (owns ptr here)
    obtain ⟨_, _, run', whole⟩ := fat16Open_null inv starts entry (made.grown.congr none)
    rw [run] at run'
    cases run'
    exact whole.sameLive

end Error

section Descended

variable {live : List Allocation} {kernel start here : Kernel} {volume : FatPrivate}
  {path second descriptor item : Nat} {directory : FatDirectory} {ptrs : List Nat}
  {first last : List UInt8}

/-- With two names the walk comes to the root directory and to the subdirectory. -/
theorem Descended.stops
    (descended : Descended [first, last] live kernel start here volume path second descriptor item
      directory ptrs) {kernel' : Kernel} {current part : Nat} {directory' : FatDirectory}
    (walked : Walked diskstreamerRead start path kernel' current directory' part) :
    kernel' = start ∧ current = 0 ∧ directory' = volume.rootDirectory ∧ part = path ∨
      kernel' = here ∧ directory' = directory ∧ part = second := by
  have grown := descended.starts.grown descended.invariant
  induction walked with
  | root mounted =>
      rw [(descended.root.grown grown).volumeLive.fsPrivate] at mounted
      cases mounted
      exact .inl ⟨rfl, rfl, rfl, rfl⟩
  | down above part named search freed reached more ih =>
      rcases ih with ⟨rfl, rfl, rfl, rfl⟩ | ⟨rfl, rfl, rfl⟩
      · obtain ⟨_, name, part', named', search'⟩ := descended.first
        rw [part] at part'
        cases part'
        rw [named] at named'
        cases named'
        rw [search] at search'
        cases search'
        obtain ⟨_, rfl⟩ := freed.resolve_right fun below => below.1 rfl
        obtain ⟨_, present, value⟩ := reached
        obtain ⟨_, present', value'⟩ := descended.below
        rw [present] at present'
        cases present'
        rw [value] at value'
        cases value'
        exact .inr ⟨rfl, rfl, rfl⟩
      · obtain ⟨_, _, _, part', ends, _⟩ := descended.missing
        rw [part] at part'
        cases part'
        exact absurd (ends.mpr rfl) more

/-- Neither of the two lookups loses an item. -/
theorem Descended.losesNothing
    (descended : Descended [first, last] live kernel start here volume path second descriptor item
      directory ptrs) (mode : Nat) : LosesNothing kernel path mode := by
  refine .inr (.inr fun {descriptor' start'} requested {kernel' current part directory'} walked
    loses => ?_)
  rw [descended.starts.requested] at requested
  cases requested
  obtain ⟨_, value, name, contents, present, named, buffer, lost⟩ := loses
  rcases descended.stops walked with ⟨rfl, _, rfl, rfl⟩ | ⟨rfl, rfl, rfl⟩
  · obtain ⟨contents', buffer', entry⟩ := descended.rootEntry
    rw [buffer] at buffer'
    cases buffer'
    have one := descended.one
    rcases lost with ⟨j, k, before, _, matches'⟩ | ⟨_, k, matches', file⟩
    · have inside := matches'.1
      omega
    · obtain rfl : k = 0 := by
        have inside := matches'.1
        omega
      rw [entry] at file
      exact absurd file (by decide)
  · obtain ⟨_, _, _, present', _, named', buffer', none⟩ := descended.missing
    rw [present] at present'
    cases present'
    rw [named] at named'
    cases named'
    rw [buffer] at buffer'
    cases buffer'
    rcases lost with ⟨_, k, _, _, matches'⟩ | ⟨_, k, matches', _⟩ <;> exact none k matches'

end Descended

/-- Nothing is lost where a subdirectory does not have the last of two names. -/
theorem sameLive_missing : ∃ live kernel path ptrs value next,
    KernelInvariant kernelHeapRegion live kernel ∧
      PathLive live kernel path [itemName subdirectoryEntry, [88]] ptrs ∧
      (fat16Open diskstreamerRead path fileModeRead).run kernel = .ok (value, next) ∧
      isErr value = true ∧ SameLive kernelHeapRegion live next := by
  obtain ⟨live, kernel, start, here, volume, path, second, descriptor, item, directory, ptrs,
    descended⟩ := @exists_descended [] (by decide) (by decide)
  have grown := descended.starts.grown descended.invariant
  obtain ⟨value, _, _, part, ends, _⟩ := descended.missing
  obtain ⟨last, _, _, entry, grown'⟩ := fat16GetDirectoryEntry_missing diskstreamerRead_readsStreams
    grown.invariant (descended.root.grown grown) (descended.pathLive.grown grown) descended.walked
    descended.namesNothing (.inr ⟨descended.notNull, value, part, ends.mpr rfl⟩)
  obtain ⟨_, next, run, _⟩ := fat16Open_null descended.invariant descended.starts entry grown'
  exact ⟨live, kernel, path, ptrs, _, next, descended.invariant, descended.pathLive, run, by decide,
    (sameLive_iff descended.invariant descended.root descended.pathLive run (by decide)).mpr
      (descended.losesNothing fileModeRead)⟩

/-- A path that continues through the regular file in the root directory. -/
theorem sameLive_throughFile : ∃ live kernel volume names ptrs path value next,
    KernelInvariant kernelHeapRegion live kernel ∧ RootLive live volume kernel ∧
      PathLive live kernel path names ptrs ∧
      (fat16Open diskstreamerRead path fileModeRead).run kernel = .ok (value, next) ∧
      isErr value = true ∧ ¬ SameLive kernelHeapRegion live next := by
  have reads := diskstreamerRead_readsStreams
  obtain ⟨live, kernel, volume, small⟩ := @smallVolume_boot [(1024, 65)] [65 :: List.replicate 31 0]
    (by decide +kernel) (by decide +kernel) (by decide)
  obtain ⟨live', ready, all, path, ptrs, descriptor, start, grown, pathLive, starts, room⟩ :=
    @SmallVolume.opening _ _ _ _ _ small [[65], [66]] (by decide) (by decide)
  have grown' := starts.grown grown.invariant
  have whole := grown.trans grown'
  have opened := pathLive.grown grown'
  have root := small.root.grown whole
  obtain ⟨_, _, buffer, second, _, first⟩ := opened.uncons opened.parts.1
  cases first.names
  have matching : Named (65 :: List.replicate 31 0) (partBuffer [65]) := by decide +kernel
  have items : itemBytes (window (imageOf (smallHeader ++ [(1024, 65)])) 1024 512) 0 =
      65 :: List.replicate 31 0 := by decide +kernel
  have search := small.search whole (by decide) items matching
  have roomAfter : start.heap.RoomAfter 1 1 := room.after (by decide)
  obtain ⟨found, pointer, last, made, present, _⟩ :=
    fat16NewFatItemForDirectoryItem_file grown'.invariant roomAfter
      (show (65 :: List.replicate 31 0 : List UInt8).length = _ by decide) (by decide)
  obtain ⟨_, _, grown'', _⟩ := fat16NewFatItemForDirectoryItem_completed reads grown'.invariant
    root.volumeLive (by decide) made
  have notNull : found ≠ 0 := by
    rintro rfl
    rw [grown''.invariant.null] at present
    cases present
  have more := first.left.parts.1
  have loaded : (load Obj.fatItem? found).run last = .ok (_, last) := load_of_obj present rfl
  have entry : (fat16GetDirectoryEntry diskstreamerRead path).run start = .ok (0, last) := by
    rw [fat16GetDirectoryEntry_searched root.volumeLive.fsPrivate first.part first.name
      (search.trans made), if_neg notNull, fat16GetDirectoryEntryLoop, if_neg more,
      Exec.bind_of_ok loaded, if_pos (show fatItemTypeFile ≠ fatItemTypeDirectory by decide),
      Exec.run_pure]
  obtain ⟨_, next, run, _⟩ := fat16Open_null grown.invariant starts entry grown''
  refine ⟨live', ready, volume, _, ptrs, path, _, next, grown.invariant, small.root.grown grown,
    pathLive, run, by decide, LosesItem.not_sameLive reads grown.invariant (small.root.grown grown)
      pathLive starts entry run (.root root.volumeLive.fsPrivate)
      ⟨roomAfter.positive le_rfl, _, _, _, first.part, first.name,
        (whole.keeps small.root.held).obj small.buffer rfl,
        .inr ⟨more, 0, ⟨?_, items.symm ▸ matching⟩, items.symm ▸ by decide⟩⟩⟩
  rw [small.total]
  decide

end Peachos
