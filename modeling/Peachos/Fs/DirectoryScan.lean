import Peachos.Fs.StreamPositions

/-! # The scan of a directory

The scan that counts the entries of a directory reads them one after the other from the first
cluster on, up to one whose first byte is zero. It completes exactly when there is such an entry
before the stream position leaves the positions that can be read.
-/

namespace Peachos

open CInt Window Exec

/-- The entries that a scan from the stream position goes over, before the one that ends it. -/
def ScannedFrom (drive : Nat → UInt8) : (pos : Int) → (entries : List (List UInt8)) → Prop
  | pos, [] => Addressable pos ∧ (bytesAt drive pos sizeofFatDirectoryItem).getD 0 0 = 0
  | pos, raw :: rest => Addressable pos ∧ raw = bytesAt drive pos sizeofFatDirectoryItem ∧
      raw.getD 0 0 ≠ 0 ∧ ScannedFrom drive (i32 (pos + sizeofFatDirectoryItem)) rest

namespace ScannedFrom

variable {drive : Nat → UInt8} {pos : Int} {entries : List (List UInt8)}

theorem addressable (scanned : ScannedFrom drive pos entries) : Addressable pos := by
  cases entries with
  | nil => exact scanned.1
  | cons raw rest => exact scanned.1

/-- At a negative position only the end of the directory can be read. -/
theorem nil_of_negative (scanned : ScannedFrom drive pos entries) (below : pos < 0)
    (lower : -2147483648 ≤ pos) : entries = [] := by
  cases entries with
  | nil => rfl
  | cons raw rest =>
      obtain ⟨here, _, _, tail⟩ := scanned
      have there := tail.addressable
      unfold Addressable sizeofFatDirectoryItem at *
      rw [i32_of_range (by omega) (by omega)] at there
      omega

/-- The entries lie below the greatest position of an `int`. -/
theorem length_le (scanned : ScannedFrom drive pos entries) (aligned : pos % 32 = 0)
    (above : 0 ≤ pos) (upper : pos ≤ 2147483648) :
    pos + sizeofFatDirectoryItem * entries.length ≤ 2147483648 := by
  induction entries generalizing pos with
  | nil =>
      rw [List.length_nil]
      omega
  | cons raw rest ih =>
      obtain ⟨_, _, _, tail⟩ := scanned
      rw [List.length_cons]
      unfold sizeofFatDirectoryItem at *
      by_cases more : pos + 32 < 2147483648
      · rw [i32_of_range (by omega) (by omega)] at tail
        have below := ih tail (by omega) (by omega) (by omega)
        omega
      · by_cases last : pos + 32 = 2147483648
        · have wrapped : i32 (pos + (32 : Nat)) = -2147483648 := by
            unfold i32
            omega
          rw [wrapped] at tail
          rw [tail.nil_of_negative (by decide) le_rfl, List.length_nil]
          omega
        · have start : pos = 2147483648 := by omega
          have wrapped : i32 (pos + (32 : Nat)) = -2147483616 := by
            unfold i32
            omega
          rw [wrapped] at tail
          exact absurd tail.addressable (by decide)

/-- A directory that ends before the greatest position is scanned. -/
theorem of_directoryAt {pos : Nat} (directory : DirectoryAt drive pos entries)
    (bounded : pos + sizeofFatDirectoryItem * (entries.length + 1) ≤ 2147483648) :
    ScannedFrom drive pos entries := by
  induction entries generalizing pos with
  | nil =>
      unfold sizeofFatDirectoryItem at *
      rw [List.length_nil] at bounded
      exact ⟨.inl (Int.natCast_nonneg _), by
        rw [bytesAt_small _ (by omega)]
        exact directory⟩
  | cons raw rest ih =>
      obtain ⟨same, used, tail⟩ := directory
      rw [List.length_cons] at bounded
      unfold sizeofFatDirectoryItem at *
      refine ⟨.inl (Int.natCast_nonneg _), ?_, used, ?_⟩
      · rw [bytesAt_small _ (by omega)]
        exact same
      · change ScannedFrom drive (i32 ((pos + 32 : Nat) : Int)) rest
        rw [i32_natCast (by omega)]
        exact ih tail (by omega)

/-- A scan goes over the same entries each time. -/
theorem unique {others : List (List UInt8)} (scanned : ScannedFrom drive pos entries)
    (scanned' : ScannedFrom drive pos others) : entries = others := by
  induction entries generalizing pos others with
  | nil =>
      cases others with
      | nil => rfl
      | cons other _ =>
          obtain ⟨_, rfl, used, _⟩ := scanned'
          exact absurd scanned.2 used
  | cons raw rest ih =>
      obtain ⟨_, rfl, used, tail⟩ := scanned
      cases others with
      | nil => exact absurd scanned'.2 used
      | cons other others =>
          obtain ⟨_, rfl, _, tail'⟩ := scanned'
          rw [ih tail tail']

end ScannedFrom

section Loop

variable {kernel next : Kernel} {stream : Nat}

/-- **The loop counts what it scans.** -/
theorem fat16GetTotalItemsLoop_scanned (entries : List (List UInt8)) :
    ∀ (pos : Int) (fuel i : Nat) (kernel : Kernel), ScannedFrom kernel.drive pos entries →
      pos % 32 = 0 → entries.length < fuel → i + entries.length < 2147483648 →
      kernel.objs stream = some (streamAtInt pos) →
      ∃ next, (fat16GetTotalItemsLoop diskstreamerRead stream fuel i).run kernel =
          .ok (((i + liveCount entries : Nat) : Int), next) ∧ OnlyStreams kernel next := by
  induction entries with
  | nil =>
      rintro pos fuel i kernel ⟨addressable, ended⟩ aligned enough small present
      cases fuel with
      | zero => cases enough
      | succ fuel =>
          have done := @diskstreamerRead_part _ _ _ sizeofFatDirectoryItem present addressable
            (by decide) (by unfold sizeofFatDirectoryItem; omega)
          have only : OnlyStreams kernel (kernel.setObj stream
            (some (streamAtInt (i32 (pos + sizeofFatDirectoryItem))))) := .setObj present rfl
          refine ⟨_, ?_, only⟩
          rw [fat16GetTotalItemsLoop]
          refine (bind_of_ok done).trans ?_
          dsimp only
          rw [if_neg (not_not.mpr rfl), if_pos ended]
          rfl
  | cons raw rest ih =>
      rintro pos fuel i kernel ⟨addressable, same, used, tail⟩ aligned enough small present
      rw [List.length_cons] at enough small
      cases fuel with
      | zero => cases enough
      | succ fuel =>
          have done := @diskstreamerRead_part _ _ _ sizeofFatDirectoryItem present addressable
            (by decide) (by unfold sizeofFatDirectoryItem; omega)
          rw [← same] at done
          have only : OnlyStreams kernel (kernel.setObj stream
            (some (streamAtInt (i32 (pos + sizeofFatDirectoryItem))))) := .setObj present rfl
          have turn := fun i' (small' : i' + rest.length < 2147483648) =>
            ih (i32 (pos + sizeofFatDirectoryItem)) fuel i' _ (by rw [only.drive]; exact tail)
              (by unfold sizeofFatDirectoryItem i32; omega) (by omega) small'
              (Kernel.setObj_objs_self ..)
          rw [fat16GetTotalItemsLoop]
          by_cases deleted : raw.getD 0 0 = 0xE5
          · obtain ⟨next, counted, only'⟩ := turn i (by omega)
            refine ⟨next, (bind_of_ok done).trans ?_, only.trans only'⟩
            dsimp only
            rw [if_neg (not_not.mpr rfl), if_neg used, if_pos deleted, counted,
              liveCount_cons_of_deleted deleted]
          · obtain ⟨next, counted, only'⟩ := turn (i + 1) (by omega)
            refine ⟨next, (bind_of_ok done).trans ?_, only.trans only'⟩
            dsimp only
            rw [if_neg (not_not.mpr rfl), if_neg used, if_neg deleted,
              i32_of_range (by omega) (by omega), ← Int.natCast_succ, counted,
              liveCount_cons_of_live deleted, Nat.succ_add_eq_add_succ]

/-- A loop that completes has scanned a directory. -/
theorem fat16GetTotalItemsLoop_ends : ∀ (fuel : Nat) (pos i : Int) (kernel : Kernel)
    {result : Int × Kernel}, pos % 32 = 0 → kernel.objs stream = some (streamAtInt pos) →
    (fat16GetTotalItemsLoop diskstreamerRead stream fuel i).run kernel = .ok result →
    ∃ entries, ScannedFrom kernel.drive pos entries := by
  intro fuel
  induction fuel with
  | zero => exact fun _ _ _ _ _ _ run => nomatch run
  | succ fuel ih =>
      intro pos i kernel result aligned present run
      obtain ⟨⟨res, item⟩, middle, delivered, run⟩ := bind_eq_ok.mp run
      have addressable := @diskstreamerRead_completed _ _ _ sizeofFatDirectoryItem present
        (by decide) _ delivered
      rw [@diskstreamerRead_part _ _ _ sizeofFatDirectoryItem present addressable (by decide)
        (by unfold sizeofFatDirectoryItem; omega)] at delivered
      cases delivered
      dsimp only at run
      rw [if_neg (not_not.mpr rfl)] at run
      by_cases ended : (bytesAt kernel.drive pos sizeofFatDirectoryItem).getD 0 0 = 0
      · exact ⟨[], addressable, ended⟩
      · rw [if_neg ended] at run
        obtain ⟨i', run⟩ : ∃ i', (fat16GetTotalItemsLoop diskstreamerRead stream fuel i').run
            (kernel.setObj stream (some (streamAtInt (i32 (pos + sizeofFatDirectoryItem))))) =
              .ok result := by
          split at run
          · exact ⟨_, run⟩
          · exact ⟨_, run⟩
        obtain ⟨entries, scanned⟩ := ih _ _ _ (by unfold sizeofFatDirectoryItem i32; omega)
          (Kernel.setObj_objs_self ..) run
        exact ⟨_ :: entries, addressable, rfl, ended, scanned⟩

end Loop

section Scan

variable {live : List Allocation} {kernel : Kernel} {volume : FatPrivate}

/-- The position that the scan of a directory starts at. -/
def scanStart (sector : Nat) : Int := i32 (sector * 512 : Nat)

theorem scanStart_whole (sector : Nat) : scanStart sector % 512 = 0 := by
  unfold scanStart i32
  omega

theorem ScannedFrom.count_le {drive : Nat → UInt8} {sector : Nat} {entries : List (List UInt8)}
    (scanned : ScannedFrom drive (scanStart sector) entries) : entries.length ≤ 67108864 := by
  have whole := scanStart_whole sector
  have lower := i32_lower (sector * 512 : Nat)
  have upper := i32_upper (sector * 512 : Nat)
  change -2147483648 ≤ scanStart sector at lower
  change scanStart sector < 2147483648 at upper
  by_cases above : 0 ≤ scanStart sector
  · have below := scanned.length_le (by omega) above (by omega)
    unfold sizeofFatDirectoryItem at below
    omega
  · rw [scanned.nil_of_negative (by omega) lower, List.length_nil]
    omega

/-- **The scan** of what it can go over. -/
theorem fat16GetTotalItemsForDirectory_scanned (mounted : VolumeLive live volume kernel)
    (sectorSize : kernel.disk.sectorSize = peachosSectorSize) {sector : Nat}
    {entries : List (List UInt8)} (scanned : ScannedFrom kernel.drive (scanStart sector) entries) :
    ∃ next, (fat16GetTotalItemsForDirectory diskstreamerRead sector).run kernel =
        .ok ((liveCount entries : Int), next) ∧ OnlyStreams kernel next := by
  obtain ⟨sought, only, present, same⟩ :=
    fat16GetTotalItemsForDirectory_eq diskstreamerRead mounted sectorSize sector
  have whole := scanStart_whole sector
  have short := scanned.count_le
  obtain ⟨next, counted, only'⟩ := fat16GetTotalItemsLoop_scanned entries (scanStart sector)
    67108866 0 sought (by rw [only.drive]; exact scanned) (by omega) (by omega) (by omega) present
  rw [Nat.zero_add] at counted
  exact ⟨next, same.trans counted, only.trans only'⟩

/-- A scan that completes counts the entries it went over. -/
theorem fat16GetTotalItemsForDirectory_ends (mounted : VolumeLive live volume kernel)
    (sectorSize : kernel.disk.sectorSize = peachosSectorSize) {sector : Nat} {total : Int}
    {next : Kernel}
    (run : (fat16GetTotalItemsForDirectory diskstreamerRead sector).run kernel =
      .ok (total, next)) :
    ∃ entries, ScannedFrom kernel.drive (scanStart sector) entries ∧ total = liveCount entries := by
  obtain ⟨sought, only, present, same⟩ :=
    fat16GetTotalItemsForDirectory_eq diskstreamerRead mounted sectorSize sector
  have whole := scanStart_whole sector
  obtain ⟨entries, scanned⟩ := fat16GetTotalItemsLoop_ends 67108866 (scanStart sector) 0 sought
    (by omega) present (same.symm.trans run)
  rw [only.drive] at scanned
  obtain ⟨next', counted, _⟩ := fat16GetTotalItemsForDirectory_scanned mounted sectorSize scanned
  rw [run] at counted
  exact ⟨entries, scanned, (Prod.mk.inj (Except.ok.inj counted)).1⟩

end Scan

end Peachos
