import Peachos.Fs.Walk

/-! # Completed walks

A walk that completes takes one turn for each name that it looks up: `Holding.turn`. What it
returns in the end is an item that it has made, or null: `Holding.completed`.
-/

namespace Peachos

open CInt

section Turns

variable {region : KernelRegion} {live live' : List Allocation}
  {start kernel last : Kernel} {volume : FatPrivate} {read : StreamRead}
  {path current part item result : Nat} {directory : FatDirectory} {contents : List UInt8}
  {names : List (List UInt8)} {ptrs : List Nat} {all mine : Nat → Prop}

/-- The walk from a directory on completes. -/
def Completes (read : StreamRead) (start : Kernel) (path : Nat) (kernel : Kernel) (current : Nat)
    (directory : FatDirectory) (part result : Nat) (last : Kernel) : Prop :=
  current = 0 ∧ kernel = start ∧ part = path ∧
      (fat16GetDirectoryEntry read path).run start = .ok (result, last) ∨
    current ≠ 0 ∧ ∃ fuel, (walkRest read fuel current directory part).run kernel = .ok (result, last)

/-- A walk that completes has completed from each of its directories on. -/
theorem WalkPoint.completes
    (point : WalkPoint read region live live' volume start path kernel current directory part all mine
      contents names ptrs)
    (run : (fat16GetDirectoryEntry read path).run start = .ok (result, last)) :
    Completes read start path kernel current directory part result last := by
  rcases point.runs with ⟨atRoot, same, _, same'⟩ | ⟨below, fuel, _, runs⟩
  · exact .inl ⟨atRoot, same, same', run⟩
  · exact .inr ⟨below, fuel, runs ▸ run⟩

theorem WalkPoint.atRoot
    (point : WalkPoint read region live live' volume start path kernel current directory part all mine
      contents names ptrs) (root : current = 0) : directory = volume.rootDirectory :=
  (point.runs.resolve_right fun below => below.1 root).2.2.1

/-- What the loop does with the item that it has. -/
theorem fat16GetDirectoryEntryLoop_cases {fuel : Nat}
    (run : (fat16GetDirectoryEntryLoop read fuel item part).run kernel = .ok (result, last)) :
    part = 0 ∧ result = item ∧ last = kernel ∨
      part ≠ 0 ∧ ∃ value, kernel.objs item = some (.fatItem value) ∧
        (value.type ≠ fatItemTypeDirectory ∧ result = 0 ∧ last = kernel ∨
          value.type = fatItemTypeDirectory ∧ ∃ below less,
            kernel.objs value.pointer = some (.fatDirectory below) ∧
              (walkRest read less item below part).run kernel = .ok (result, last)) := by
  cases fuel with
  | zero => cases run
  | succ fuel =>
      rw [fat16GetDirectoryEntryLoop] at run
      by_cases ends : part = 0
      · rw [if_pos ends] at run
        cases run
        exact .inl ⟨ends, rfl, rfl⟩
      rw [if_neg ends] at run
      obtain ⟨object, value, present, typed, run⟩ := load_bind_eq_ok.mp run
      cases object <;> cases typed
      refine .inr ⟨ends, value, present, ?_⟩
      by_cases regular : value.type ≠ fatItemTypeDirectory
      · rw [if_pos regular] at run
        cases run
        exact .inl ⟨regular, rfl, rfl⟩
      · rw [if_neg regular] at run
        obtain ⟨object, below, present', typed, run⟩ := load_bind_eq_ok.mp run
        cases object <;> cases typed
        exact .inr ⟨not_not.mp regular, below, fuel, present', run⟩

/-- One turn of the walk, from a directory to the item that the lookup has found. -/
structure WalkTurn (read : StreamRead) (region : KernelRegion) (live live' : List Allocation)
    (start kernel found next : Kernel) (current : Nat) (directory : FatDirectory)
    (contents : List UInt8) (part : Nat) (value : PathPart) (name : List UInt8) (item : Nat)
    (all mine add owned : Nat → Prop) (raw : List UInt8) : Prop where
  here : kernel.objs part = some (.pathPart value)
  named : kernel.objs value.part = some (.bytes name)
  search : (fat16FindItemInDirectory read directory name).run kernel = .ok (item, found)
  freed : FreesItem current found next
  stepped : Stepped region live live' start kernel next directory contents name all mine add owned
    raw item

/-- A walk that completes has a name to look up. -/
theorem Completes.notNull (mounted : start.objs start.disk.fsPrivate = some (.fatPrivate volume))
    (null : kernel.objs 0 = none)
    (run : Completes read start path kernel current directory part result last) : part ≠ 0 := by
  rintro rfl
  rcases run with ⟨_, rfl, rfl, run⟩ | ⟨_, fuel, run⟩
  · have loaded : loadPrivate.run kernel = .ok (volume, kernel) := by
      rw [loadPrivate, Exec.bind_of_ok (Exec.run_read _ _)]
      exact load_of_obj mounted rfl
    rw [fat16GetDirectoryEntry, Exec.bind_of_ok loaded] at run
    obtain ⟨_, _, present, _⟩ := load_bind_eq_ok.mp run
    rw [null] at present
    cases present
  · obtain ⟨_, _, present, _⟩ := load_bind_eq_ok.mp run
    rw [null] at present
    cases present

/-- A walk that completes takes a turn, and then it ends or goes down into a directory. -/
theorem Holding.turn (reads : ReadsStreams read) (root : RootLive live volume start)
    (holding : Holding region live live' start kernel all mine current directory contents)
    (atRoot : current = 0 → directory = volume.rootDirectory)
    (pathLive : PathLive live start part names ptrs)
    (run : Completes read start path kernel current directory part result last) :
    ∃ live'' found next value name item add owned raw rest ptrs',
      WalkTurn read region live live'' start kernel found next current directory contents part value
          name item all mine add owned raw ∧
        PathLive live start value.next rest ptrs' ∧ names.length = rest.length + 1 ∧
        ((item = 0 ∨ value.next = 0) ∧ result = item ∧ last = next ∨
          value.next ≠ 0 ∧ (∃ found', next.objs item = some (.fatItem found') ∧
            found'.type ≠ fatItemTypeDirectory) ∧ result = 0 ∧ last = next ∨
          value.next ≠ 0 ∧ ∃ below, DirectoryOf next item below ∧
            Completes read start path next item below value.next result last) := by
  have inv := holding.grown.invariant
  have mounted := root.volumeLive.grown holding.grown
  have notNull := run.notNull root.volumeLive.fsPrivate inv.null
  obtain ⟨name, rest, buffer, after, ptrs', cons⟩ := pathLive.uncons notNull
  have here := (holding.grown.keeps cons.partHeld).obj cons.part rfl
  have named := (holding.grown.keeps cons.nameHeld).obj cons.name rfl
  have shorter : names.length = rest.length + 1 := by rw [cons.names, List.length_cons]
  obtain ⟨item, found, search⟩ : ∃ item found,
      (fat16FindItemInDirectory read directory (partBuffer name)).run kernel = .ok (item, found) := by
    rcases run with ⟨rfl, rfl, rfl, run⟩ | ⟨_, fuel, run⟩
    · rw [atRoot rfl]
      exact fat16GetDirectoryEntry_completed root.volumeLive.fsPrivate here named run
    · exact walkRest_completed here named run
  obtain ⟨next, live'', add, owned, raw, freed, stepped⟩ := holding.step
    (fat16FindItemInDirectory_searched reads inv mounted holding.target search)
  refine ⟨live'', found, next, _, _, item, add, owned, raw, rest, ptrs',
    ⟨here, named, search, freed, stepped⟩, cons.left, shorter, ?_⟩
  have goesOn : ∀ {fuel}, (fat16GetDirectoryEntryLoop read fuel item after).run next =
      .ok (result, last) → (item = 0 ∨ after = 0) ∧ result = item ∧ last = next ∨
        after ≠ 0 ∧ (∃ found', next.objs item = some (.fatItem found') ∧
          found'.type ≠ fatItemTypeDirectory) ∧ result = 0 ∧ last = next ∨
        after ≠ 0 ∧ ∃ below, DirectoryOf next item below ∧
          Completes read start path next item below after result last := by
    intro fuel run
    rcases fat16GetDirectoryEntryLoop_cases run with ⟨ends, same, same'⟩ |
      ⟨more, found', present, ⟨regular, same, same'⟩ | ⟨typed, below, less, there, run⟩⟩
    · exact .inl ⟨.inr ends, same, same'⟩
    · exact .inr (.inl ⟨more, ⟨found', present, regular⟩, same, same'⟩)
    · refine .inr (.inr ⟨more, below, ⟨found'.pointer, ?_, there⟩, .inr ⟨?_, less, run⟩⟩)
      · rw [present, ← typed]
      · rintro rfl
        rw [stepped.grown.invariant.null] at present
        cases present
  rcases run with ⟨rfl, rfl, rfl, run⟩ | ⟨below, fuel, run⟩
  · rw [atRoot rfl] at search
    obtain ⟨_, rfl⟩ := freed.resolve_right fun below => below.1 rfl
    rw [fat16GetDirectoryEntry_searched root.volumeLive.fsPrivate here named search] at run
    by_cases null : item = 0
    · rw [if_pos null] at run
      cases run
      exact .inl ⟨.inl null, null.symm, rfl⟩
    · rw [if_neg null] at run
      exact goesOn run
  · rw [walkRest_searched here named search below freed] at run
    exact goesOn run

/-- A walk has made the item that it returns; it has allocated the blocks in `all`. -/
structure WalkMade (region : KernelRegion) (live live' : List Allocation) (start last : Kernel)
    (result : Nat) (raw : List UInt8) (all owned : Nat → Prop) : Prop where
  grown : Grown region live live' start last all
  made : ItemMade live' last raw result owned
  within : ∀ ptr, owned ptr → all ptr

/-- The item of the last turn is returned. -/
theorem Stepped.walkMade {name raw : List UInt8} {next : Kernel} {add owned : Nat → Prop}
    (stepped : Stepped region live live' start kernel next directory contents name all mine add
      owned raw item) (within : ∀ ptr, mine ptr → all ptr) :
    WalkMade region live live' start next item raw (fun ptr => (all ptr ∨ add ptr) ∧ ¬ mine ptr)
      owned :=
  ⟨stepped.grown, stepped.made, fun ptr own => ⟨.inr (stepped.within ptr own), fun old =>
    stepped.apart ptr (stepped.within ptr own) (within ptr old)⟩⟩

/-- The item of the last turn is lost. -/
theorem Stepped.walkMade_null {name raw : List UInt8} {next : Kernel} {add owned : Nat → Prop}
    (stepped : Stepped region live live' start kernel next directory contents name all mine add
      owned raw item) : WalkMade region live live' start next 0 []
        (fun ptr => (all ptr ∨ add ptr) ∧ ¬ mine ptr) fun _ => False :=
  ⟨stepped.grown, .refused rfl fun _ => id, fun _ => False.elim⟩

/-- **A completed walk.** -/
theorem Holding.completed (reads : ReadsStreams read) (root : RootLive live volume start)
    (count : Nat) :
    ∀ {live' : List Allocation} {kernel : Kernel} {current part : Nat} {directory : FatDirectory}
      {contents : List UInt8} {names : List (List UInt8)} {ptrs : List Nat}
      {all mine : Nat → Prop}, names.length = count →
      Holding region live live' start kernel all mine current directory contents →
      (current = 0 → directory = volume.rootDirectory) → PathLive live start part names ptrs →
      Completes read start path kernel current directory part result last →
      ∃ live'' raw all' owned, WalkMade region live live'' start last result raw all' owned := by
  induction count with
  | zero =>
      intro _ _ _ _ _ _ names _ _ _ length holding atRoot pathLive run
      obtain ⟨_, _, _, _, _, _, _, _, _, _, _, _, _, shorter, _⟩ :=
        holding.turn reads root atRoot pathLive run
      omega
  | succ count ih =>
      intro _ _ _ _ _ _ names _ all mine length holding atRoot pathLive run
      obtain ⟨_, _, next, value, _, item, add, owned, raw, rest, _, turn, left, shorter, outcome⟩ :=
        holding.turn reads root atRoot pathLive run
      have stepped := turn.stepped
      rcases outcome with ⟨_, rfl, rfl⟩ | ⟨_, _, rfl, rfl⟩ | ⟨_, below, reached, run⟩
      · exact ⟨_, raw, _, owned, stepped.walkMade holding.within⟩
      · exact ⟨_, [], _, _, stepped.walkMade_null⟩
      · obtain ⟨_, holding'⟩ := stepped.holding holding.within reached
        exact ih (by omega) holding'
          (fun null => absurd null (reached.notNull holding'.grown.invariant.null)) left run

/-- The walk from the root directory. -/
theorem fat16GetDirectoryEntry_made (reads : ReadsStreams read)
    (inv : KernelInvariant region live start) (root : RootLive live volume start)
    (pathLive : PathLive live start path names ptrs)
    (run : (fat16GetDirectoryEntry read path).run start = .ok (item, last)) :
    ∃ live' all raw owned, Grown region live live' start last all ∧
      ItemMade live' last raw item owned ∧ ∀ ptr, owned ptr → all ptr := by
  obtain ⟨contents, holding⟩ := root.holding inv
  obtain ⟨live', raw, all, owned, made⟩ :=
    holding.completed reads root _ rfl (fun _ => rfl) pathLive (.inl ⟨rfl, rfl, rfl, run⟩)
  exact ⟨live', all, raw, owned, made.grown, made.made, made.within⟩

end Turns

end Peachos
