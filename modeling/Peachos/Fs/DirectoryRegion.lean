import Peachos.Fs.DirectorySearch

/-! # A directory on the disk

A directory is a list of entries of 32 bytes each, from a position of the disk on, up to an entry
whose first byte is zero. An entry that starts with `0xE5` is deleted: the first pass of the code,
which counts, goes over it; the second pass, which reads, does not.
-/

namespace Peachos

open CInt Window

/-- The entries from `pos` on, before the one that ends the directory. -/
def DirectoryAt (drive : Nat → UInt8) : (pos : Nat) → (entries : List (List UInt8)) → Prop
  | pos, [] => (window drive pos sizeofFatDirectoryItem).getD 0 0 = 0
  | pos, raw :: rest => raw = window drive pos sizeofFatDirectoryItem ∧ raw.getD 0 0 ≠ 0 ∧
      DirectoryAt drive (pos + sizeofFatDirectoryItem) rest

instance decidableDirectoryAt (drive : Nat → UInt8) :
    (pos : Nat) → (entries : List (List UInt8)) → Decidable (DirectoryAt drive pos entries)
  | _, [] => inferInstanceAs (Decidable (_ = _))
  | pos, _ :: rest =>
      have : Decidable (DirectoryAt drive (pos + sizeofFatDirectoryItem) rest) :=
        decidableDirectoryAt drive _ rest
      inferInstanceAs (Decidable (_ ∧ _ ∧ _))

/-- The entry is deleted. -/
def Deleted (raw : List UInt8) : Prop := raw.getD 0 0 = 0xE5

instance (raw : List UInt8) : Decidable (Deleted raw) := inferInstanceAs (Decidable (_ = _))

/-- The number of entries that are not deleted. -/
def liveCount (entries : List (List UInt8)) : Nat := entries.countP fun raw => ¬ Deleted raw

theorem liveCount_le (entries : List (List UInt8)) : liveCount entries ≤ entries.length :=
  List.countP_le_length

theorem liveCount_cons_of_deleted {raw : List UInt8} (deleted : Deleted raw)
    (rest : List (List UInt8)) : liveCount (raw :: rest) = liveCount rest :=
  List.countP_cons_of_neg fun live => of_decide_eq_true live deleted

theorem liveCount_cons_of_live {raw : List UInt8} (live : ¬ Deleted raw)
    (rest : List (List UInt8)) : liveCount (raw :: rest) = liveCount rest + 1 :=
  List.countP_cons_of_pos (decide_eq_true live)

theorem DirectoryAt.get {drive : Nat → UInt8} {entries : List (List UInt8)} :
    ∀ {pos : Nat}, DirectoryAt drive pos entries → ∀ {i : Nat} {raw : List UInt8},
      entries[i]? = some raw →
      raw = window drive (pos + sizeofFatDirectoryItem * i) sizeofFatDirectoryItem ∧
        raw.getD 0 0 ≠ 0 := by
  induction entries with
  | nil => exact fun _ _ _ present => nomatch present
  | cons head rest ih =>
      rintro pos ⟨same, used, tail⟩ i raw present
      cases i with
      | zero =>
          cases present
          exact ⟨same, used⟩
      | succ i =>
          obtain ⟨same', used'⟩ := ih tail present
          refine ⟨?_, used'⟩
          rw [same', Nat.mul_succ]
          congr 1
          omega

/-- An entry of a buffer that was read from the directory. -/
theorem DirectoryAt.itemBytes {drive : Nat → UInt8} {entries : List (List UInt8)} {pos size : Nat}
    (directory : DirectoryAt drive pos entries) {i : Nat} {raw : List UInt8}
    (present : entries[i]? = some raw) (inside : sizeofFatDirectoryItem * (i + 1) ≤ size) :
    itemBytes (window drive pos size) i = raw := by
  rw [Nat.mul_succ] at inside
  rw [Peachos.itemBytes, drop_window _ _ (by omega), take_window _ _ (by omega),
    (directory.get present).1]

section Count

variable {read : StreamRead} {request : Nat → Nat → Prop} {kernel : Kernel} {volume : FatPrivate}

/-- The requests of the first pass: an entry at a multiple of its size. -/
def ItemRequests (request : Nat → Nat → Prop) : Prop :=
  ∀ pos, pos % sizeofFatDirectoryItem = 0 → pos + sizeofFatDirectoryItem ≤ 2147483648 →
    request pos sizeofFatDirectoryItem

theorem itemRequests_sectorRequest : ItemRequests SectorRequest := by
  intro pos aligned bounded
  unfold SectorRequest
  unfold sizeofFatDirectoryItem at *
  omega

/-- The requests for the entries of a directory at `pos`, and for the one that ends it. -/
def EntryReads (request : Nat → Nat → Prop) (pos count : Nat) : Prop :=
  ∀ k ≤ count, request (pos + sizeofFatDirectoryItem * k) sizeofFatDirectoryItem

theorem EntryReads.tail {pos count : Nat} (items : EntryReads request pos (count + 1)) :
    EntryReads request (pos + sizeofFatDirectoryItem) count := by
  intro k inside
  have next := items (k + 1) (by omega)
  rw [Nat.mul_succ] at next
  rwa [show pos + sizeofFatDirectoryItem + sizeofFatDirectoryItem * k =
    pos + (sizeofFatDirectoryItem * k + sizeofFatDirectoryItem) by omega]

theorem ItemRequests.entryReads (items : ItemRequests request) {pos count : Nat}
    (aligned : pos % sizeofFatDirectoryItem = 0)
    (bounded : pos + sizeofFatDirectoryItem * (count + 1) ≤ 2147483648) :
    EntryReads request pos count := by
  intro k inside
  refine items _ (by rw [Nat.add_mul_mod_self_left]; exact aligned) ?_
  unfold sizeofFatDirectoryItem at *
  omega

/-- **The first pass.** The loop counts the entries that are not deleted. -/
theorem fat16GetTotalItemsLoop_run (delivers : Delivers read request) {stream : Nat}
    (entries : List (List UInt8)) :
    ∀ (pos fuel i : Nat) (kernel : Kernel), DirectoryAt kernel.drive pos entries →
      entries.length < fuel → EntryReads request pos entries.length →
      pos + sizeofFatDirectoryItem * (entries.length + 1) ≤ 2147483648 →
      i + entries.length < 2147483648 → kernel.objs stream = some (streamAt pos) →
      ∃ next, (fat16GetTotalItemsLoop read stream fuel i).run kernel =
          .ok (((i + liveCount entries : Nat) : Int), next) ∧ OnlyStreams kernel next := by
  induction entries with
  | nil =>
      intro pos fuel i kernel ends enough items bounded small present
      cases fuel with
      | zero => cases enough
      | succ fuel =>
          obtain ⟨next, done, only⟩ := delivers.run present (items 0 le_rfl)
          refine ⟨next, ?_, only⟩
          rw [fat16GetTotalItemsLoop]
          refine (Exec.bind_of_ok done).trans ?_
          dsimp only
          unfold DirectoryAt at ends
          rw [if_neg (not_not.mpr rfl), if_pos ends]
          rfl
  | cons raw rest ih =>
      rintro pos fuel i kernel ⟨same, used, tail⟩ enough items bounded small present
      rw [List.length_cons] at enough bounded small
      rw [Nat.mul_succ] at bounded
      cases fuel with
      | zero => cases enough
      | succ fuel =>
          have more : pos + sizeofFatDirectoryItem < 2147483648 := by
            unfold sizeofFatDirectoryItem at *
            omega
          have done := delivers kernel stream pos sizeofFatDirectoryItem
            (items 0 (Nat.zero_le _)) present
          rw [← same, streamPast_eq more] at done
          have only : OnlyStreams kernel (kernel.setObj stream
            (some (streamAt (pos + sizeofFatDirectoryItem)))) := .setObj present rfl
          have turn := fun i' (small' : i' + rest.length < 2147483648) =>
            ih (pos + sizeofFatDirectoryItem) fuel i' _ (by rw [only.drive]; exact tail) (by omega)
              items.tail (by omega) small' (Kernel.setObj_objs_self ..)
          rw [fat16GetTotalItemsLoop]
          by_cases deleted : raw.getD 0 0 = 0xE5
          · obtain ⟨next, counted, only'⟩ := turn i (by omega)
            refine ⟨next, (Exec.bind_of_ok done).trans ?_, only.trans only'⟩
            dsimp only
            rw [if_neg (not_not.mpr rfl), if_neg used, if_pos deleted, counted,
              liveCount_cons_of_deleted deleted]
          · obtain ⟨next, counted, only'⟩ := turn (i + 1) (by omega)
            refine ⟨next, (Exec.bind_of_ok done).trans ?_, only.trans only'⟩
            dsimp only
            rw [if_neg (not_not.mpr rfl), if_neg used, if_neg deleted,
              i32_of_range (by omega) (by omega), ← Int.natCast_succ, counted,
              liveCount_cons_of_live deleted, Nat.succ_add_eq_add_succ]

/-- The first pass, from a sector on. -/
theorem fat16GetTotalItemsForDirectory_counts (delivers : Delivers read request)
    {live : List Allocation} (mounted : VolumeLive live volume kernel)
    (sectorSize : kernel.disk.sectorSize = peachosSectorSize) {sector : Nat}
    {entries : List (List UInt8)} (directory : DirectoryAt kernel.drive (sector * 512) entries)
    (items : EntryReads request (sector * 512) entries.length)
    (bounded : sector * 512 + sizeofFatDirectoryItem * (entries.length + 1) ≤ 2147483648) :
    ∃ next, (fat16GetTotalItemsForDirectory read sector).run kernel =
        .ok ((liveCount entries : Int), next) ∧ OnlyStreams kernel next := by
  obtain ⟨sought, seek, only, present⟩ :=
    diskstreamerSeek_run mounted.directoryStream (sector * 512)
  have pos : i32 (u32 ((sector : Int) * kernel.disk.sectorSize)) = (sector * 512 : Nat) := by
    rw [sectorSize]
    unfold sizeofFatDirectoryItem peachosSectorSize at *
    unfold u32 i32
    omega
  obtain ⟨next, counted, only'⟩ := fat16GetTotalItemsLoop_run delivers entries (sector * 512)
    67108866 0 sought (by rw [only.drive]; exact directory) (by
      unfold sizeofFatDirectoryItem at bounded
      omega) items bounded (by
      unfold sizeofFatDirectoryItem at bounded
      omega) present
  refine ⟨next, ?_, only.trans only'⟩
  rw [Nat.zero_add] at counted
  rw [fat16GetTotalItemsForDirectory, Exec.bind_of_ok mounted.loadPrivate_run,
    Exec.bind_of_ok (Exec.run_read _ _)]
  dsimp only
  rw [pos, Exec.bind_of_ok seek, if_neg (not_not.mpr rfl)]
  exact counted

theorem fat16GetTotalItemsForDirectory_run (delivers : Delivers read request)
    (items : ItemRequests request) {live : List Allocation}
    (mounted : VolumeLive live volume kernel)
    (sectorSize : kernel.disk.sectorSize = peachosSectorSize) {sector : Nat}
    {entries : List (List UInt8)} (directory : DirectoryAt kernel.drive (sector * 512) entries)
    (bounded : sector * 512 + sizeofFatDirectoryItem * (entries.length + 1) ≤ 2147483648) :
    ∃ next, (fat16GetTotalItemsForDirectory read sector).run kernel =
        .ok ((liveCount entries : Int), next) ∧ OnlyStreams kernel next :=
  fat16GetTotalItemsForDirectory_counts delivers mounted sectorSize directory
    (items.entryReads (by unfold sizeofFatDirectoryItem; omega) bounded) bounded

end Count

end Peachos
