import Peachos.Fs.OpenError
import Peachos.Fs.Resolution
import Peachos.Fs.WholeItems

/-! # Where a walk ends

A completed walk ends at one of the directories that it comes to: with nothing, when no entry has
the name, no block is free for its item, or it is the one of a regular file before the end of the
path, else with the item of the last name. So `fat16_open` succeeds when no lookup finds nothing
(`fat16Open_succeeds_iff`), and its item can be freed when the last one has room for it
(`fat16Open_whole_iff`).
-/

namespace Peachos

open CInt

/-- The lookup of the name of the part leads to nothing: no entry matches, no block is free when the
last match has its turn, or that is a regular file with more of the path to go. -/
def FindsNothing (read : StreamRead) (kernel : Kernel) (directory : FatDirectory) (part : Nat) :
    Prop :=
  ∃ value name contents, kernel.objs part = some (.pathPart value) ∧
    kernel.objs value.part = some (.bytes name) ∧
    kernel.objs directory.item = some (.bytes contents) ∧
    ((∀ k, ¬ Matches directory contents name k) ∨
      ∃ k earlier reached, LastMatch directory contents name k ∧
        (fat16FindItemLoop read directory name k 0 0).run kernel = .ok (earlier, reached) ∧
        (reached.heap.freeBlocks = 0 ∨ value.next ≠ 0 ∧
          (FatDirectoryItem.decode (itemBytes contents k)).attributes &&& fatFileSubdirectory = 0))

/-- The mode is read, a block is free for the descriptor, and no lookup of the walk leads to
nothing. -/
def FindsItem (kernel : Kernel) (path mode : Nat) : Prop :=
  mode = fileModeRead ∧ 1 ≤ kernel.heap.freeBlocks ∧ ∀ {descriptor start},
    (kmalloc sizeofFatItem (.fatFileDescriptor {})).run kernel = .ok (descriptor, start) →
      ∀ {here current directory part},
        Walked diskstreamerRead start path here current directory part →
          ¬ FindsNothing diskstreamerRead here directory part

/-- Where the walk looks the last name of the path up, there is room for the item of an entry that
matches. -/
def LastFits (volume : FatPrivate) (kernel : Kernel) (path : Nat) : Prop :=
  ∀ {descriptor start},
    (kmalloc sizeofFatItem (.fatFileDescriptor {})).run kernel = .ok (descriptor, start) →
      ∀ {here current directory part value name contents k},
        Walked diskstreamerRead start path here current directory part →
        here.objs part = some (.pathPart value) → value.next = 0 →
        here.objs value.part = some (.bytes name) →
        here.objs directory.item = some (.bytes contents) →
        Matches directory contents name k → ItemFits volume here (itemBytes contents k)

theorem LastMatch.unique {directory : FatDirectory} {contents name : List UInt8} {j k : Nat}
    (last : LastMatch directory contents name j) (last' : LastMatch directory contents name k) :
    j = k :=
  Nat.le_antisymm (last'.2 j last.1) (last.2 k last'.1)

section Ends

variable {region : KernelRegion} {live live' : List Allocation}
  {start kernel found next last : Kernel} {volume : FatPrivate} {read : StreamRead}
  {path current part item result : Nat} {directory : FatDirectory} {contents name raw : List UInt8}
  {names : List (List UInt8)} {ptrs : List Nat} {all mine add owned : Nat → Prop}

/-- The item is the one that the walk returns, or it is one of a regular file with more of the path
to go, and the walk returns null. -/
def EndsWith (last : Kernel) (next item result : Nat) : Prop :=
  (item = 0 ∨ next = 0) ∧ result = item ∨
    next ≠ 0 ∧ (∃ value, last.objs item = some (.fatItem value) ∧
      value.type ≠ fatItemTypeDirectory) ∧ result = 0

/-- **A completed walk ends at a directory that it comes to.** -/
theorem Holding.ends (reads : ReadsStreams read) (root : RootLive live volume start) (count : Nat) :
    ∀ {live' : List Allocation} {kernel : Kernel} {current part : Nat} {directory : FatDirectory}
      {contents : List UInt8} {names : List (List UInt8)} {ptrs : List Nat}
      {all mine : Nat → Prop}, names.length = count →
      Holding region live live' start kernel all mine current directory contents →
      (current = 0 → directory = volume.rootDirectory) →
      Walked read start path kernel current directory part →
      PathLive live start part names ptrs →
      Completes read start path kernel current directory part result last →
      ∃ live' live'' here found current directory contents part value name item all mine add owned
        raw, Walked read start path here current directory part ∧
          Holding region live live' start here all mine current directory contents ∧
          WalkTurn read region live live'' start here found last current directory contents part
            value name item all mine add owned raw ∧ EndsWith last value.next item result := by
  induction count with
  | zero =>
      intro _ _ _ _ _ _ names _ _ _ length holding atRoot _ pathLive run
      obtain ⟨_, _, _, _, _, _, _, _, _, _, _, _, _, shorter, _⟩ :=
        holding.turn reads root atRoot pathLive run
      omega
  | succ count ih =>
      intro _ _ _ _ _ _ names _ _ _ length holding atRoot walked pathLive run
      obtain ⟨_, _, next, value, _, item, _, _, _, _, _, turn, left, shorter, outcome⟩ :=
        holding.turn reads root atRoot pathLive run
      rcases outcome with ⟨ends, same, rfl⟩ | ⟨more, regular, same, rfl⟩ |
        ⟨more, below, reached, run⟩
      · exact ⟨_, _, _, _, _, _, _, _, _, _, _, _, _, _, _, _, walked, holding, turn,
          .inl ⟨ends, same⟩⟩
      · exact ⟨_, _, _, _, _, _, _, _, _, _, _, _, _, _, _, _, walked, holding, turn,
          .inr ⟨more, regular, same⟩⟩
      · obtain ⟨_, holding'⟩ := turn.stepped.holding holding.within reached
        exact ih (by omega) holding'
          (fun null => absurd null (reached.notNull holding'.grown.invariant.null))
          (.down walked turn.here turn.named turn.search turn.freed reached more) left run

/-- A walk that ends with null has found nothing. -/
theorem WalkTurn.findsNothing {live'' : List Allocation} {value : PathPart}
    (turn : WalkTurn read region live live'' start kernel found last current directory contents part
      value name item all mine add owned raw)
    (reads : ReadsStreams read) (root : RootLive live volume start)
    (holding : Holding region live live' start kernel all mine current directory contents)
    (ends : EndsWith last value.next item 0) : FindsNothing read kernel directory part := by
  have grown := holding.grown
  refine ⟨value, name, contents, turn.here, turn.named, holding.target.buffer, ?_⟩
  rcases fat16FindItemInDirectory_last reads grown.invariant (root.volumeLive.grown grown)
    holding.target turn.search with ⟨none, _⟩ | ⟨k, reached, _, _, made⟩
  · exact .inl none
  obtain ⟨earlier, before⟩ := made.before
  refine .inr ⟨k, earlier, reached, made.last, before, ?_⟩
  rcases ends with ⟨_, null⟩ | ⟨more, ⟨value', present, regular⟩, _⟩
  · refine .inl (Nat.eq_zero_of_not_pos fun free => ?_)
    exact fat16NewFatItemForDirectoryItem_notNull made.grown.invariant free made.making null.symm
  · have grown' := grown.trans made.grown
    obtain ⟨_, _, whole, made'⟩ := fat16NewFatItemForDirectoryItem_completed reads
      made.grown.invariant (root.volumeLive.grown grown') (length_itemBytes made.inside) made.making
    exact .inr ⟨more, (made'.isFile (turn.freed.old _ _ present) whole.invariant.null).mp regular⟩

/-- A walk that comes to a lookup which leads to nothing returns null. -/
theorem FindsNothing.null (finds : FindsNothing read kernel directory part)
    (reads : ReadsStreams read) (root : RootLive live volume start)
    (holding : Holding region live live' start kernel all mine current directory contents)
    (atRoot : current = 0 → directory = volume.rootDirectory)
    (pathLive : PathLive live start part names ptrs)
    (run : Completes read start path kernel current directory part result last) : result = 0 := by
  obtain ⟨value, name, contents', here, named, buffer, nothing⟩ := finds
  have buffer' := holding.target.buffer
  rw [buffer] at buffer'
  cases buffer'
  obtain ⟨live'', found, next, _, _, item, _, _, _, _, _, turn, _, _, outcome⟩ :=
    holding.turn reads root atRoot pathLive run
  have here' := turn.here
  rw [here] at here'
  cases here'
  have named' := turn.named
  rw [named] at named'
  cases named'
  have grown := holding.grown
  have null := turn.stepped.grown.invariant.null
  -- the item is null, or one of a regular file with more of the path to go
  have leads : item = 0 ∨ value.next ≠ 0 ∧ ∀ value', next.objs item = some (.fatItem value') →
      value'.type ≠ fatItemTypeDirectory := by
    rcases fat16FindItemInDirectory_last reads grown.invariant (root.volumeLive.grown grown)
      holding.target turn.search with ⟨_, isNull, _⟩ | ⟨k, reached, _, _, made⟩
    · exact .inl isNull
    rcases nothing with none | ⟨k', earlier, reached', last, before, either⟩
    · exact absurd made.last.1 (none k)
    obtain rfl := made.last.unique last
    obtain ⟨_, before'⟩ := made.before
    rw [before] at before'
    obtain ⟨-, rfl⟩ := Prod.mk.inj (Except.ok.inj before')
    rcases either with full | ⟨more, regular⟩
    · have refused := @fat16NewFatItemForDirectoryItem_full _ _ _ read made.grown.invariant full
        (itemBytes contents k)
      rw [made.making] at refused
      exact .inl (Prod.mk.inj (Except.ok.inj refused)).1
    · obtain ⟨_, _, whole, made'⟩ := fat16NewFatItemForDirectoryItem_completed reads
        made.grown.invariant (root.volumeLive.grown (grown.trans made.grown))
        (length_itemBytes made.inside) made.making
      exact .inr ⟨more, fun value' present =>
        (made'.isFile (turn.freed.old _ _ present) whole.invariant.null).mpr regular⟩
  rcases outcome with ⟨ends, same, _⟩ | ⟨_, _, same, _⟩ | ⟨_, below, reached, _⟩
  · rcases leads with isNull | ⟨more, _⟩
    · rw [same, isNull]
    · rw [same, ends.resolve_right more]
  · exact same
  · rcases leads with isNull | ⟨_, regular⟩
    · exact absurd isNull (reached.notNull null)
    · obtain ⟨_, present, _⟩ := reached
      exact absurd rfl (regular _ present)

/-- **When `fat16_open` succeeds.** -/
theorem fat16Open_succeeds_iff {mode value : Nat} (inv : KernelInvariant region live kernel)
    (root : RootLive live volume kernel) (pathLive : PathLive live kernel path names ptrs)
    (run : (fat16Open diskstreamerRead path mode).run kernel = .ok (value, next)) :
    isErr value = false ↔ FindsItem kernel path mode := by
  have reads := diskstreamerRead_readsStreams
  constructor
  · intro succeeds
    obtain ⟨readOnly, start, last, item, starts, entry, notNull, _⟩ :=
      fat16Open_walked inv run succeeds
    have grown := starts.grown inv
    have counted := starts.placed.freeBlocks inv
    have oneBlock : blocksFor sizeofFatItem = 1 := by decide
    refine ⟨readOnly, by omega, fun {_ _} requested {_ _ _ _} walked finds => ?_⟩
    rw [starts.requested] at requested
    cases requested
    obtain ⟨_, _, _, _, _, _, point⟩ := walked.point reads grown.invariant (root.grown grown)
      (pathLive.grown grown)
    exact notNull (finds.null reads (root.grown grown) point.holding point.atRoot point.left
      (point.completes entry))
  · rintro ⟨readOnly, free, finds⟩
    by_contra failed
    rw [Bool.not_eq_false] at failed
    rcases fat16Open_failed inv run failed with ⟨other, _⟩ | ⟨_, ⟨full, _⟩ |
      ⟨descriptor, start, last, starts, entry⟩⟩
    · exact other readOnly
    · omega
    have grown := starts.grown inv
    have root' := root.grown grown
    obtain ⟨contents, holding⟩ := root'.holding grown.invariant
    obtain ⟨_, _, _, _, _, _, _, _, _, _, _, _, _, _, _, _, walked, holding', turn, ends⟩ :=
      holding.ends reads root' _ rfl (fun _ => rfl) (.root root'.volumeLive.fsPrivate)
        (pathLive.grown grown) (.inl ⟨rfl, rfl, rfl, entry⟩)
    exact finds starts.requested walked (turn.findsNothing reads root' holding' ends)

/-- What the walk frees after a lookup does not take from the item that was made. -/
theorem WalkTurn.itemWhole {live₁ live'' : List Allocation} {value : PathPart} {new : Nat → Prop}
    {raw' : List UInt8}
    (turn : WalkTurn read region live live'' start kernel found next current directory contents part
      value name item all mine add owned raw)
    (holding : Holding region live live' start kernel all mine current directory contents)
    (grown : Grown region live' live₁ kernel found new) (made : ItemMade live₁ found raw' item new)
    (notNull : item ≠ 0) (nonempty : contents ≠ []) :
    ItemWhole next item ↔ ItemWhole found item := by
  have kept : ∀ ptr, new ptr → next.objs ptr = found.objs ptr := by
    intro ptr own
    obtain ⟨_, _, freed, _, _, kept⟩ := holding.frees grown nonempty
    obtain rfl := turn.freed.unique freed
    refine kept ptr fun old => ?_
    obtain ⟨allocation, member, same⟩ := holding.grown.held ptr (holding.within ptr old)
    exact grown.fresh allocation member (same ▸ own)
  have same := kept item (made.owns_item notNull)
  unfold ItemWhole
  rw [same]
  refine forall_congr' fun value' => forall_congr' fun present => or_congr_left ?_
  constructor
  · intro there
    obtain ⟨contents', here⟩ := Option.isSome_iff_exists.mp there
    rw [turn.freed.old _ _ here]
    rfl
  · intro there
    rw [kept _ (made.owns_pointer grown.invariant.null present there)]
    exact there

/-- The item of the one entry that matches is whole when there is room for it. -/
theorem WalkTurn.fits {live'' : List Allocation} {value : PathPart} {k : Nat}
    (turn : WalkTurn diskstreamerRead region live live'' start kernel found next current directory
      contents part value name item all mine add owned raw)
    (root : RootLive live volume start) (bounded : VolumeBounded volume start)
    (holding : Holding region live live' start kernel all mine current directory contents)
    (loses : ¬ LosesItem kernel directory part) (notNull : item ≠ 0)
    (matching : Matches directory contents name k) :
    ItemWhole next item ↔ ItemFits volume kernel (itemBytes contents k) := by
  have reads := diskstreamerRead_readsStreams
  have inv := holding.grown.invariant
  have held := root.volumeLive.grown holding.grown
  rcases turn.stepped.tight with ⟨_, ⟨null, _⟩ | ⟨_, free, _, _, only, _⟩⟩ | ⟨⟨free, several⟩, _⟩
  · exact absurd null notNull
  swap
  · exact absurd ⟨free, value, name, contents, turn.here, turn.named, holding.target.buffer,
      .inl several⟩ loses
  rcases fat16FindItemInDirectory_last reads inv held holding.target turn.search with
    ⟨none, _⟩ | ⟨k', reached, _, _, made⟩
  · exact absurd matching (none k)
  obtain rfl : k' = k := (only k' made.last.1).trans (only k matching).symm
  obtain rfl := made.reached_eq holding.target.buffer fun j less other =>
    less.ne ((only j other).trans (only k' matching).symm)
  obtain ⟨_, _, grown, made'⟩ := fat16NewFatItemForDirectoryItem_completed reads inv held
    (length_itemBytes made.inside) made.making
  have nonempty : contents ≠ [] := by
    rintro rfl
    have inside := made.inside
    rw [List.length_nil] at inside
    unfold sizeofFatDirectoryItem at inside
    omega
  rw [turn.itemWhole holding grown made' notNull nonempty]
  exact fat16NewFatItemForDirectoryItem_whole inv held (bounded.grown holding.grown)
    (length_itemBytes made.inside) free made.making

/-- **When the item that `fat16_open` has made can be freed.** -/
theorem fat16Open_whole_iff {descriptor : Nat} (inv : KernelInvariant region live kernel)
    (root : RootLive live volume kernel) (bounded : VolumeBounded volume kernel)
    (pathLive : PathLive live kernel path names ptrs)
    (starts : OpenStarts region live kernel descriptor start)
    (entry : (fat16GetDirectoryEntry diskstreamerRead path).run start = .ok (item, last))
    (notNull : item ≠ 0)
    (loses : ∀ {here current directory part},
      Walked diskstreamerRead start path here current directory part →
        ¬ LosesItem here directory part) :
    ItemWhole last item ↔ LastFits volume kernel path := by
  have reads := diskstreamerRead_readsStreams
  have grown := starts.grown inv
  have root' := root.grown grown
  have bounded' := bounded.grown grown
  have pathLive' := pathLive.grown grown
  constructor
  · intro whole _ _ requested _ _ _ _ value name contents k walked here ends named buffer matching
    rw [starts.requested] at requested
    cases requested
    obtain ⟨_, _, _, _, _, _, point⟩ := walked.point reads grown.invariant root' pathLive'
    obtain ⟨_, _, _, _, _, _, _, _, _, _, _, turn, _, _, outcome⟩ :=
      point.holding.turn reads root' point.atRoot point.left (point.completes entry)
    have here' := turn.here
    rw [here] at here'
    cases here'
    have named' := turn.named
    rw [named] at named'
    cases named'
    have buffer' := point.holding.target.buffer
    rw [buffer] at buffer'
    cases buffer'
    rcases outcome with ⟨_, rfl, rfl⟩ | ⟨more, _⟩ | ⟨more, _⟩
    · exact (turn.fits root' bounded' point.holding (loses walked) notNull matching).mp whole
    · exact absurd ends more
    · exact absurd ends more
  · intro fits
    obtain ⟨contents, holding⟩ := root'.holding grown.invariant
    obtain ⟨_, _, here, _, _, directory, _, part, value, name, _, _, _, _, _, _, walked, holding',
      turn, ends⟩ := holding.ends reads root' _ rfl (fun _ => rfl)
        (.root root'.volumeLive.fsPrivate) pathLive' (.inl ⟨rfl, rfl, rfl, entry⟩)
    rcases ends with ⟨last, rfl⟩ | ⟨_, _, null⟩
    swap
    · exact absurd null notNull
    have ends := last.resolve_left notNull
    rcases fat16FindItemInDirectory_last reads holding'.grown.invariant
      (root'.volumeLive.grown holding'.grown) holding'.target turn.search with
      ⟨_, null, _⟩ | ⟨k, _, _, _, made⟩
    · exact absurd null notNull
    exact (turn.fits root' bounded' holding' (loses walked) notNull made.last.1).mpr
      (fits starts.requested walked turn.here ends turn.named holding'.target.buffer made.last.1)

end Ends

end Peachos
