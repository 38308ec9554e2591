import Peachos.Fs.Mount

/-! # Searching the root directory

The search goes over as many entries of the loaded region as there are live ones. These are the
live ones only when no live entry comes after a deleted one.
-/

namespace Peachos

open CInt Window

/-- The search goes over the entry `k`, whose name matches, and over no later one whose name does;
it returns the item that it makes for it after the search of the entries before. -/
structure FindReturns (read : StreamRead) (kernel : Kernel) (directory : FatDirectory)
    (entries : List (List UInt8)) (name : List UInt8) (k : Nat) (raw : List UInt8) : Prop where
  reached : (k : Int) < directory.total
  here : entries[k]? = some raw
  named : Named raw name
  last : ∀ j later, k < j → (j : Int) < directory.total → entries[j]? = some later →
    ¬ Named later name
  run : (fat16FindItemInDirectory read directory name).run kernel =
    (fat16FindItemLoop read directory name k 0 0 >>= fun _ =>
      fat16NewFatItemForDirectoryItem read raw).run kernel

/-- The entry is live, and no other live entry has its name. -/
structure UniquelyNamed (entries : List (List UInt8)) (k : Nat) (raw : List UInt8) : Prop where
  here : entries[k]? = some raw
  live : ¬ Deleted raw
  alone : ∀ j other, entries[j]? = some other → j ≠ k → ¬ Deleted other →
    itemName other ≠ itemName raw

/-- Every live entry with a name of its own is found by its name, and no deleted entry is ever
found. -/
structure RootSearchCorrect (read : StreamRead) (kernel : Kernel) (directory : FatDirectory)
    (entries : List (List UInt8)) : Prop where
  finds : ∀ k raw, UniquelyNamed entries k raw →
    FindReturns read kernel directory entries (itemName raw) k raw
  neverDeleted : ∀ k raw name, Deleted raw →
    ¬ FindReturns read kernel directory entries name k raw

/-- No live entry comes after a deleted one. -/
def DeletedLast (entries : List (List UInt8)) : Prop :=
  entries.Pairwise fun earlier later => Deleted earlier → Deleted later

instance (entries : List (List UInt8)) : Decidable (DeletedLast entries) :=
  inferInstanceAs (Decidable (entries.Pairwise _))

/-- No live entry after one with a name of its own has that name in other letters. -/
def NoLaterTwin (entries : List (List UInt8)) : Prop :=
  ∀ k raw, UniquelyNamed entries k raw → ∀ j later, k < j → entries[j]? = some later →
    ¬ Deleted later → ¬ Named later (itemName raw)

theorem DeletedLast.live_iff {entries : List (List UInt8)} (order : DeletedLast entries) :
    ∀ {k : Nat} {raw : List UInt8}, entries[k]? = some raw →
      (k < liveCount entries ↔ ¬ Deleted raw) := by
  induction entries with
  | nil => exact fun present => nomatch present
  | cons head rest ih =>
      intro k raw present
      obtain ⟨later, order'⟩ := List.pairwise_cons.mp order
      by_cases deleted : Deleted head
      · have all : ∀ other ∈ rest, Deleted other := fun other member => later other member deleted
        have none : liveCount rest = 0 := List.countP_eq_zero.mpr fun other member =>
          by simpa only [decide_eq_true_eq, not_not] using all other member
        rw [liveCount_cons_of_deleted deleted, none]
        refine iff_of_false (Nat.not_lt_zero k) (not_not.mpr ?_)
        rcases List.mem_cons.mp (List.mem_of_getElem? present) with rfl | member
        · exact deleted
        · exact all raw member
      · rw [liveCount_cons_of_live deleted]
        cases k with
        | zero =>
            cases present
            exact iff_of_true (Nat.succ_pos _) deleted
        | succ k =>
            rw [Nat.add_lt_add_iff_right]
            exact ih order' present

/-- Live entries come first exactly when as many entries from the start on are live as there are
live ones. -/
theorem deletedLast_of_live {entries : List (List UInt8)} :
    (∀ {k : Nat} {raw : List UInt8}, entries[k]? = some raw → k < liveCount entries →
      ¬ Deleted raw) → DeletedLast entries := by
  induction entries with
  | nil => exact fun _ => .nil
  | cons head rest ih =>
      intro live
      by_cases deleted : Deleted head
      · have none : liveCount rest = 0 := by
          by_contra counted
          refine live (show (head :: rest)[0]? = some head from rfl) ?_ deleted
          rw [liveCount_cons_of_deleted deleted]
          omega
        have all : ∀ other ∈ rest, Deleted other := fun other member => by
          have counted := List.countP_eq_zero.mp none other member
          simpa only [decide_eq_true_eq, not_not] using counted
        refine List.pairwise_cons.mpr ⟨fun other member _ => all other member, ?_⟩
        exact List.pairwise_of_forall_mem_list fun _ _ other member _ => all other member
      · refine List.pairwise_cons.mpr ⟨fun _ _ here => absurd here deleted, ih ?_⟩
        intro k raw present before
        refine live (show (head :: rest)[k + 1]? = some raw from present) ?_
        rw [liveCount_cons_of_live deleted]
        omega

section Names

theorem istrncmp_self (name : List UInt8) (n : Nat) : istrncmp name name n = 0 := by
  induction n generalizing name with
  | zero => rfl
  | succ n ih =>
      rw [istrncmp, if_neg fun different => different.1 rfl]
      split
      · rfl
      · exact ih _

/-- An entry has its own name. -/
theorem named_self (raw : List UInt8) : Named raw (itemName raw) := istrncmp_self _ _

theorem headD_itemName_deleted {raw : List UInt8} :
    (itemName raw).headD 0 = 0xE5 ↔ Deleted raw := by
  cases raw with
  | nil => decide
  | cons first rest =>
      have name : itemName (first :: rest) = fat16GetFullRelativeFilename
        (FatDirectoryItem.decode (first :: rest)) := rfl
      have filename : (FatDirectoryItem.decode (first :: rest)).filename =
        first :: rest.take 7 := rfl
      have deleted : Deleted (first :: rest) ↔ first = 0xE5 := Iff.rfl
      rw [name, deleted, fat16GetFullRelativeFilename, fat16ToProperString, filename]
      by_cases printed : first ≠ 0x00 ∧ first ≠ 0x20
      · have out : (first :: rest.take 7).takeWhile
            (fun character => decide (character ≠ 0x00 ∧ character ≠ 0x20)) = first :: _ :=
          List.takeWhile_cons_of_pos (decide_eq_true printed)
        rw [out]
        split <;> rfl
      · have out : (first :: rest.take 7).takeWhile
            (fun character => decide (character ≠ 0x00 ∧ character ≠ 0x20)) = [] :=
          List.takeWhile_cons_of_neg fun yes => printed (of_decide_eq_true yes)
        rw [out]
        have other : first ≠ 0xE5 := by
          rintro rfl
          exact printed (by decide)
        refine iff_of_false ?_ other
        split
        · exact (by decide : (46 : UInt8) ≠ 0xE5)
        · exact (by decide : (0 : UInt8) ≠ 0xE5)

/-- Only deleted entries have the name of a deleted entry. -/
theorem deleted_of_named {raw later : List UInt8} (deleted : Deleted raw)
    (named : Named later (itemName raw)) : Deleted later := by
  have first := headD_itemName_deleted.mpr deleted
  unfold Named peachosMaxPath at named
  rw [istrncmp, first] at named
  apply headD_itemName_deleted.mp
  by_contra different
  rw [if_pos ⟨different, fun same => different ((toLower_eq_iff (by decide)).mp same)⟩] at named
  have equal : ((itemName later).headD 0).toNat = 229 := by
    change _ - (229 : Int) = 0 at named
    omega
  exact different (UInt8.toNat.inj equal)

end Names

section Search

variable {region : KernelRegion} {live : List Allocation} {kernel next : Kernel}
  {volume : FatPrivate} {read : StreamRead} {entries : List (List UInt8)} {dir : Nat}

/-- The last entry with the name, among those that the search goes over, is the one returned. -/
theorem findReturns_of_last (reads : ReadsStreams read)
    (root : RootOnDisk volume kernel.drive entries)
    (built : RootBuilt region live volume kernel next entries dir) {name raw : List UInt8}
    {k : Nat} (reached : k < liveCount entries) (here : entries[k]? = some raw)
    (named : Named raw name)
    (last : ∀ j later, k < j → j < liveCount entries → entries[j]? = some later →
      ¬ Named later name) :
    FindReturns read next (volume.withRoot dir (liveCount entries)).rootDirectory entries name k
      raw := by
  have most := liveCount_le entries
  have ends := root.ends
  have length : (window kernel.drive (volume.rootSector * 512) volume.rootSize).length =
      volume.rootSize := length_window ..
  have size : volume.rootSize = sizeofFatDirectoryItem * volume.header.rootDirEntries := rfl
  have entry : ∀ {j : Nat} {raw : List UInt8}, entries[j]? = some raw → itemBytes
      (window kernel.drive (volume.rootSector * 512) volume.rootSize) j = raw := by
    intro j raw present
    have inside := (List.getElem?_eq_some_iff.mp present).1
    refine root.stored.itemBytes present ?_
    rw [size]
    exact Nat.mul_le_mul_left _ (by omega)
  refine ⟨Int.ofNat_lt.mpr reached, here, named, fun j later after before =>
    last j later after (Int.ofNat_lt.mp before), ?_⟩
  have count : liveCount entries = k + (liveCount entries - k - 1 + 1) := by omega
  have found := @fat16FindItemLoop_last region live next _ read
    (volume.withRoot dir (liveCount entries)).rootDirectory _ name reads built.invariant
    built.mounted built.buffer built.held k (liveCount entries - k - 1) (by
      rw [length, size, ← count]
      exact Nat.mul_le_mul_left _ (by omega)) (by rwa [entry here]) (by
      intro j after before
      rw [← count] at before
      have present := List.getElem?_eq_getElem (show j < entries.length by omega)
      rw [entry present]
      exact last j _ after before present)
  rw [← count, entry here] at found
  exact found

/-- A name that an entry in reach has is that of a last entry in reach. -/
theorem exists_last_named {name raw : List UInt8} {total k : Nat} (most : total ≤ entries.length)
    (here : entries[k]? = some raw) (named : Named raw name) (reached : k < total) :
    ∃ j found, j < total ∧ entries[j]? = some found ∧ Named found name ∧
      ∀ i later, j < i → i < total → entries[i]? = some later → ¬ Named later name := by
  induction total with
  | zero => cases reached
  | succ total ih =>
      have present := List.getElem?_eq_getElem (show total < entries.length by omega)
      by_cases final : Named entries[total] name
      · exact ⟨total, _, Nat.lt_succ_self _, present, final, fun i _ after before => by omega⟩
      · have before : k < total := by
          rcases Nat.lt_succ_iff_lt_or_eq.mp reached with before | rfl
          · exact before
          · rw [present] at here
            cases here
            exact absurd named final
        obtain ⟨j, found, inside, at_, named', last⟩ := ih (by omega) before
        refine ⟨j, found, by omega, at_, named', fun i later after limit there => ?_⟩
        rcases Nat.lt_succ_iff_lt_or_eq.mp limit with less | rfl
        · exact last i later after less there
        · rw [present] at there
          cases there
          exact final

theorem rootSearch_correct_iff_built (reads : ReadsStreams read)
    (root : RootOnDisk volume kernel.drive entries)
    (built : RootBuilt region live volume kernel next entries dir) :
    RootSearchCorrect read next (volume.withRoot dir (liveCount entries)).rootDirectory entries ↔
      DeletedLast entries ∧ NoLaterTwin entries := by
  constructor
  · intro correct
    have order : DeletedLast entries := by
      apply deletedLast_of_live
      intro k raw here reached deleted
      obtain ⟨j, found, inside, at_, named, last⟩ :=
        exists_last_named (liveCount_le entries) here (named_self raw) reached
      exact correct.neverDeleted j found (itemName raw) (deleted_of_named deleted named)
        (findReturns_of_last reads root built inside at_ named last)
    refine ⟨order, fun k raw unique j later after present live => ?_⟩
    exact (correct.finds k raw unique).last j later after
      (Int.ofNat_lt.mpr ((order.live_iff present).mpr live)) present
  · rintro ⟨order, noTwin⟩
    constructor
    · intro k raw unique
      refine findReturns_of_last reads root built ((order.live_iff unique.here).mpr unique.live)
        unique.here (named_self raw) fun j later after before present => ?_
      exact noTwin k raw unique j later after present ((order.live_iff present).mp before)
    · intro k raw name deleted found
      exact (order.live_iff found.here).mp (Int.ofNat_lt.mp found.reached) deleted

/-- **The root directory.** On a root directory that ends inside its region, the search finds
every live entry with a name of its own and no deleted one, if and only if no live entry comes
after a deleted one and no entry with a name of its own is followed by its name in other
letters. -/
theorem rootSearch_correct_iff {volume' : FatPrivate} (inv : KernelInvariant region live kernel)
    (mounted : VolumeLive live volume kernel)
    (sectorSize : kernel.disk.sectorSize = peachosSectorSize)
    (root : RootOnDisk volume kernel.drive entries)
    (run : (fat16GetRootDirectory diskstreamerRead kernel.disk.fsPrivate).run kernel =
      .ok (0, next))
    (loaded : next.objs kernel.disk.fsPrivate = some (.fatPrivate volume')) :
    RootSearchCorrect diskstreamerRead next volume'.rootDirectory entries ↔
      DeletedLast entries ∧ NoLaterTwin entries := by
  have placed := root.placed
  have ends := root.ends
  have requested : SectorRequest (volume.rootSector * 512) volume.rootSize := by
    have size : volume.rootSize = sizeofFatDirectoryItem * volume.header.rootDirEntries := rfl
    unfold sizeofFatDirectoryItem at size
    unfold SectorRequest
    omega
  obtain ⟨live', dir, built⟩ := fat16GetRootDirectory_completed
    diskstreamerRead_readsStreams diskstreamerRead_delivers
    itemRequests_sectorRequest requested inv mounted sectorSize root run
  have present := built.mounted.fsPrivate
  rw [built.globals] at present
  change next.objs kernel.disk.fsPrivate = _ at present
  rw [loaded] at present
  cases present
  exact rootSearch_correct_iff_built diskstreamerRead_readsStreams root built

end Search

/-- The root directory of a small volume, loaded on the kernel after `kheap_init`. -/
theorem rootBuilt_boot (bytes : List (Nat × UInt8)) {entries : List (List UInt8)}
    (header : FatHeader.decode (window (imageOf (smallHeader ++ bytes)) 0 sizeofFatH) =
      FatHeader.decode (window (imageOf smallHeader) 0 sizeofFatH))
    (root : DirectoryAt (imageOf (smallHeader ++ bytes)) 1024 entries)
    (ends : entries.length < 16) :
    ∃ live live' kernel next volume dir,
      (fat16Resolve diskstreamerRead).run (bootWithDisk bytes) = .ok (0, kernel) ∧
      VolumeReady kernelHeapRegion live volume kernel entries ∧
      (fat16GetRootDirectory diskstreamerRead kernel.disk.fsPrivate).run kernel = .ok (0, next) ∧
      next.objs kernel.disk.fsPrivate =
        some (.fatPrivate (volume.withRoot dir (liveCount entries))) ∧
      RootBuilt kernelHeapRegion live' volume kernel next entries dir := by
  obtain ⟨live, kernel, volume, mount, ready, same, room, _⟩ :=
    fat16Resolve_boot bytes header root ends
  have size : volume.rootSize = 512 := by
    unfold FatPrivate.rootSize
    rw [same]
    decide
  obtain ⟨live', next, dir, run, built⟩ := ready.reload room (by rw [size]; decide)
  have loaded := built.mounted.fsPrivate
  rw [built.globals] at loaded
  exact ⟨live, live', kernel, next, volume, dir, mount, ready, run, loaded, built⟩

/-- A root directory whose entry `A` is followed by a deleted one. -/
def deletedLastImage : List (Nat × UInt8) := [(1024, 65), (1056, 0xE5)]

/-- Its entries. -/
def deletedLastEntries : List (List UInt8) :=
  [65 :: List.replicate 31 0, 0xE5 :: List.replicate 31 0]

/-- The search of that directory is right. -/
theorem rootSearch_correct_deletedLast : ∃ kernel next volume,
    (fat16Resolve diskstreamerRead).run (bootWithDisk deletedLastImage) = .ok (0, kernel) ∧
      (fat16GetRootDirectory diskstreamerRead kernel.disk.fsPrivate).run kernel = .ok (0, next) ∧
      next.objs kernel.disk.fsPrivate = some (.fatPrivate volume) ∧
      RootSearchCorrect diskstreamerRead next volume.rootDirectory deletedLastEntries := by
  obtain ⟨live, _, kernel, next, volume, dir, mount, ready, run, loaded, _⟩ :=
    @rootBuilt_boot deletedLastImage deletedLastEntries (by decide +kernel) (by decide +kernel)
      (by decide)
  refine ⟨kernel, next, _, mount, run, loaded, ?_⟩
  refine (rootSearch_correct_iff ready.invariant ready.mounted ready.sectorSize ready.root run
    loaded).mpr ⟨by decide, ?_⟩
  intro k raw unique j later after present live
  match j, present with
  | 1, present =>
      cases present
      exact absurd (by decide) live

/-- A root directory whose entry `A` comes after a deleted one. -/
def deletedFirstImage : List (Nat × UInt8) := [(1024, 0xE5), (1056, 65)]

/-- Its entries. -/
def deletedFirstEntries : List (List UInt8) :=
  [0xE5 :: List.replicate 31 0, 65 :: List.replicate 31 0]

/-- The search goes over the deleted entry only: it is found, and `A` is not. -/
theorem rootSearch_deletedFirst : ∃ kernel next volume,
    (fat16Resolve diskstreamerRead).run (bootWithDisk deletedFirstImage) = .ok (0, kernel) ∧
      RootOnDisk volume kernel.drive deletedFirstEntries ∧
      (fat16GetRootDirectory diskstreamerRead kernel.disk.fsPrivate).run kernel = .ok (0, next) ∧
      next.objs kernel.disk.fsPrivate = some (.fatPrivate volume) ∧
      volume.rootDirectory.total = 1 ∧
      ¬ RootSearchCorrect diskstreamerRead next volume.rootDirectory deletedFirstEntries := by
  obtain ⟨_, _, kernel, next, volume, dir, mount, ready, run, loaded, built⟩ :=
    @rootBuilt_boot deletedFirstImage deletedFirstEntries (by decide +kernel) (by decide +kernel)
      (by decide)
  refine ⟨kernel, next, volume.withRoot dir (liveCount deletedFirstEntries), mount,
    ready.root.of_header rfl, run, loaded, rfl, fun correct => ?_⟩
  have order := ((rootSearch_correct_iff_built diskstreamerRead_readsStreams ready.root built).mp
    correct).1
  exact absurd order (by decide)

end Peachos
