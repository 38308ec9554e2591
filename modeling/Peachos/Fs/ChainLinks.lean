import Peachos.Fs.ClusterRead
import Peachos.Fs.StreamPositions

/-! # The links of a cluster chain

The walk along the file allocation table accepts a link unless its entry is one of the markers that
the code tests for. Here the first cluster is any `int`, as a directory entry has room for one, and
the clusters may lie anywhere: a read that follows accepted links succeeds, also where its positions
wrap around.
-/

namespace Peachos

open CInt Window Exec

/-- The stream position of the table entry of a cluster. -/
def fatLinkPos (volume : FatPrivate) (cluster : Int) : Int :=
  i32 (u32 (u32 ((volume.header.reservedSectors : Int) * 512) + i32 (cluster * 2)))

/-- The table entry of a cluster, where its position can be read. -/
def fatLink (volume : FatPrivate) (drive : Nat → UInt8) (cluster : Int) : Option Nat :=
  if Addressable (fatLinkPos volume cluster)
  then some (littleEndian (bytesAt drive (fatLinkPos volume cluster) 2)) else none

/-- The first `links` links of the chain are accepted. -/
def LinksAccepted (volume : FatPrivate) (drive : Nat → UInt8) :
    (links : Nat) → (cluster : Int) → Prop
  | 0, _ => True
  | links + 1, cluster => ∃ entry : Nat, fatLink volume drive cluster = some entry ∧
      ¬ fat16EntryRejected entry ∧ LinksAccepted volume drive links entry

/-- The links that a read of `total` bytes from the start of the chain on follows are accepted. -/
def ChainAccepted (volume : FatPrivate) (drive : Nat → UInt8) (cluster : Int) (total : Nat) :
    Prop :=
  0 ≤ cluster ∧ ∀ piece, piece = 0 ∨ piece * clusterBytes volume < total →
    LinksAccepted volume drive piece cluster

/-- The cluster that the first links of the chain lead to. -/
def linkedCluster (volume : FatPrivate) (drive : Nat → UInt8) : (links : Nat) → (cluster : Int) →
    Int
  | 0, cluster => cluster
  | links + 1, cluster =>
      linkedCluster volume drive links ((fatLink volume drive cluster).getD 0 : Nat)

/-- The position of a cluster of the chain. -/
def linkedPos (volume : FatPrivate) (drive : Nat → UInt8) (cluster : Int) (links : Nat) : Int :=
  clusterPos volume (linkedCluster volume drive links cluster).toNat

/-- The byte at an offset in the clusters of the chain, one after the other. -/
def chainByte (volume : FatPrivate) (drive : Nat → UInt8) (cluster : Int) (offset : Nat) : UInt8 :=
  drive ((linkedPos volume drive cluster (offset / clusterBytes volume)).toNat +
    offset % clusterBytes volume)

/-- The clusters of the chain that hold `total` bytes from the start of a cluster on lie at
positions that an `int` can hold. -/
def ChainPlaced (volume : FatPrivate) (drive : Nat → UInt8) (cluster : Int) (links total : Nat) :
    Prop :=
  ∀ piece, piece * clusterBytes volume < total →
    0 ≤ linkedPos volume drive cluster (links + piece) ∧
      linkedPos volume drive cluster (links + piece) + clusterBytes volume ≤ 2147483648

theorem ChainAccepted.shorter {volume : FatPrivate} {drive : Nat → UInt8} {cluster : Int}
    {total less : Nat} (accepted : ChainAccepted volume drive cluster total) (fewer : less ≤ total) :
    ChainAccepted volume drive cluster less :=
  ⟨accepted.1, fun piece inside => accepted.2 piece (inside.imp_right (·.trans_le fewer))⟩

theorem ChainPlaced.shorter {volume : FatPrivate} {drive : Nat → UInt8} {cluster : Int}
    {links total less : Nat} (placed : ChainPlaced volume drive cluster links total)
    (fewer : less ≤ total) : ChainPlaced volume drive cluster links less :=
  fun piece inside => placed piece (inside.trans_le fewer)

/-- The bytes of one cluster of the chain. -/
theorem window_chainByte (volume : FatPrivate) (drive : Nat → UInt8) (cluster : Int)
    (links : Nat) {count : Nat} (within : count ≤ clusterBytes volume) :
    window (chainByte volume drive cluster) (links * clusterBytes volume) count =
      window drive (linkedPos volume drive cluster links).toNat count := by
  apply window_congr
  intro index before
  unfold chainByte
  rw [Nat.mul_comm, Nat.mul_add_div (by omega), Nat.div_eq_of_lt (by omega), Nat.add_zero,
    Nat.mul_add_mod, Nat.mod_eq_of_lt (by omega)]

theorem fatLinkPos_even (volume : FatPrivate) (cluster : Int) :
    fatLinkPos volume cluster % 2 = 0 := by
  unfold fatLinkPos u32 i32
  omega

section Walk

variable {volume : FatPrivate} {kernel next : Kernel}

/-- The code looks the entry up at its position. -/
theorem fat16GetFatEntry_link (mounted : Mounted volume kernel) (cluster : Int) :
    ∃ sought, OnlyStreams kernel sought ∧
      sought.objs volume.fatReadStream = some (streamAtInt (fatLinkPos volume cluster)) ∧
      (fat16GetFatEntry diskstreamerRead cluster).run kernel = (do
        let (res, result) ← diskstreamerRead volume.fatReadStream 2
        if res < 0 then pure res else pure (littleEndian result) : K Int).run sought := by
  obtain ⟨sought, seek, only, present⟩ :=
    diskstreamerSeek_at mounted.fatReadStream (fatLinkPos volume cluster)
  refine ⟨sought, only, present, ?_⟩
  have position : i32 (u32 (u32 ((fat16GetFirstFatSector volume : Int) * kernel.disk.sectorSize) +
      i32 (cluster * 2))) = fatLinkPos volume cluster := by
    rw [mounted.sectorSize]
    rfl
  rw [fat16GetFatEntry, bind_of_ok (loadPrivate_run mounted), bind_of_ok (run_read _ _)]
  dsimp only
  rw [if_neg mounted.fatReadNotNull, position, bind_of_ok seek, if_neg (by decide)]

/-- **One link.** -/
theorem fat16GetFatEntry_some (mounted : Mounted volume kernel) {cluster : Int} {entry : Nat}
    (link : fatLink volume kernel.drive cluster = some entry) :
    ∃ next, (fat16GetFatEntry diskstreamerRead cluster).run kernel = .ok ((entry : Int), next) ∧
      OnlyStreams kernel next := by
  obtain ⟨sought, only, present, same⟩ := fat16GetFatEntry_link mounted cluster
  have even := fatLinkPos_even volume cluster
  unfold fatLink at link
  by_cases addressable : Addressable (fatLinkPos volume cluster)
  · rw [if_pos addressable] at link
    cases link
    have done := @diskstreamerRead_part _ _ _ 2 present addressable (by decide) (by omega)
    have moved : OnlyStreams sought (sought.setObj volume.fatReadStream
        (some (streamAtInt (i32 (fatLinkPos volume cluster + (2 : Nat)))))) := .setObj present rfl
    refine ⟨_, same.trans ((bind_of_ok done).trans ?_), only.trans moved⟩
    dsimp only
    rw [if_neg (by decide), only.drive, run_pure]
  · rw [if_neg addressable] at link
    cases link

/-- A link that was looked up is there. -/
theorem fat16GetFatEntry_completed (mounted : Mounted volume kernel) {cluster entry : Int}
    (run : (fat16GetFatEntry diskstreamerRead cluster).run kernel = .ok (entry, next)) :
    ∃ found : Nat, fatLink volume kernel.drive cluster = some found ∧ entry = found ∧
      OnlyStreams kernel next := by
  obtain ⟨sought, only, present, same⟩ := fat16GetFatEntry_link mounted cluster
  obtain ⟨result, middle, delivered, _⟩ := bind_eq_ok.mp (same.symm.trans run)
  have addressable := @diskstreamerRead_completed _ _ _ 2 present (by decide) _ delivered
  obtain ⟨next', run', only'⟩ := fat16GetFatEntry_some mounted (if_pos addressable)
  rw [run] at run'
  cases run'
  exact ⟨_, if_pos addressable, rfl, only'⟩

/-- Accepted links lead to a cluster that is not negative. -/
theorem LinksAccepted.linkedCluster_nonneg {drive : Nat → UInt8} {links : Nat} {cluster : Int}
    (accepted : LinksAccepted volume drive links cluster) (above : 0 ≤ cluster) :
    0 ≤ linkedCluster volume drive links cluster := by
  induction links generalizing cluster with
  | zero => exact above
  | succ links ih =>
      obtain ⟨entry, link, _, rest⟩ := accepted
      rw [linkedCluster, link]
      exact ih rest (Int.natCast_nonneg _)

/-- **Accepted links** are followed. -/
theorem fat16GetClusterLoop_accepted : ∀ (links : Nat) (cluster : Int) (kernel : Kernel),
    Mounted volume kernel → LinksAccepted volume kernel.drive links cluster →
    ∃ next, (fat16GetClusterLoop diskstreamerRead links cluster).run kernel =
      .ok (linkedCluster volume kernel.drive links cluster, next) ∧ OnlyStreams kernel next := by
  intro links
  induction links with
  | zero => exact fun cluster kernel _ _ => ⟨kernel, rfl, .refl kernel⟩
  | succ links ih =>
      rintro cluster kernel mounted ⟨entry, link, accepted, rest⟩
      obtain ⟨middle, looked, only⟩ := fat16GetFatEntry_some mounted link
      obtain ⟨next, walked, only'⟩ := ih entry middle (mounted.of_onlyStreams only)
        (by rw [only.drive]; exact rest)
      refine ⟨next, ?_, only.trans only'⟩
      rw [fat16GetClusterLoop, bind_of_ok looked, if_neg accepted, walked, linkedCluster, link,
        only.drive]
      rfl

/-- A walk that arrives at a cluster followed accepted links. -/
theorem fat16GetClusterLoop_arrived : ∀ (links : Nat) (cluster : Int) (kernel : Kernel)
    {found : Int} {next : Kernel}, Mounted volume kernel →
    (fat16GetClusterLoop diskstreamerRead links cluster).run kernel = .ok (found, next) →
    0 ≤ found → LinksAccepted volume kernel.drive links cluster := by
  intro links
  induction links with
  | zero => exact fun _ _ _ _ _ _ _ => trivial
  | succ links ih =>
      intro cluster kernel found next mounted run above
      obtain ⟨entry, middle, looked, run⟩ := bind_eq_ok.mp run
      obtain ⟨link, here, rfl, only⟩ := fat16GetFatEntry_completed mounted looked
      by_cases rejected : fat16EntryRejected (link : Int)
      · rw [if_pos rejected] at run
        cases run
        exact absurd above (by decide)
      · rw [if_neg rejected] at run
        have rest := ih _ _ (mounted.of_onlyStreams only) run above
        rw [only.drive] at rest
        exact ⟨link, here, rejected, rest⟩

/-- The walk to the start of a cluster of the chain. -/
theorem fat16GetClusterForOffset_eq (mounted : Mounted volume kernel) (cluster : Int)
    (links : Nat) : (fat16GetClusterForOffset diskstreamerRead cluster
      (links * clusterBytes volume : Nat)).run kernel =
        (fat16GetClusterLoop diskstreamerRead links cluster).run kernel := by
  have positive := clusterBytes_positive mounted
  have walked : (divide (links * clusterBytes volume : Nat)
      (sizeOfClusterBytes volume kernel.disk)).run kernel = .ok ((links : Nat), kernel) := by
    have ahead : links * clusterBytes volume / clusterBytes volume = links :=
      Nat.mul_div_cancel _ positive
    rw [sizeOfClusterBytes_eq mounted, divide_run positive, ahead]
  rw [fat16GetClusterForOffset, bind_of_ok (loadPrivate_run mounted), bind_of_ok (run_read _ _),
    bind_of_ok walked, Int.toNat_natCast]

/-- A call reads from the start of the cluster that it walks to, and leaves the rest to the next
call. -/
theorem fat16ReadInternalCalls_once (mounted : Mounted volume kernel) {cluster found : Int}
    {links total : Nat} {walked : Kernel}
    (walk : (fat16GetClusterLoop diskstreamerRead links cluster).run kernel = .ok (found, walked))
    (above : 0 ≤ found) (only : OnlyStreams kernel walked) (calls : Nat) :
    ∃ out last, OnlyStreams kernel last ∧ out.length = min total (clusterBytes volume) ∧
      (0 ≤ clusterPos volume found.toNat →
        clusterPos volume found.toNat + clusterBytes volume ≤ 2147483648 →
        out = window kernel.drive (clusterPos volume found.toNat).toNat
          (min total (clusterBytes volume))) ∧
      (fat16ReadInternalCalls diskstreamerRead volume.clusterReadStream cluster (calls + 1)
          (links * clusterBytes volume : Nat) total).run kernel =
        (if (total : Int) - (min total (clusterBytes volume) : Nat) > 0 then do
          let (res, rest) ← fat16ReadInternalCalls diskstreamerRead volume.clusterReadStream
            cluster calls (i32 ((links * clusterBytes volume : Nat) +
              (min total (clusterBytes volume) : Nat)))
            (total - (min total (clusterBytes volume) : Nat))
          pure (res, out ++ rest)
        else pure (0, out) : K (Int × List UInt8)).run last := by
  have positive := clusterBytes_positive mounted
  obtain ⟨start, position⟩ : ∃ start, start =
      i32 (i32 (fat16ClusterToSector volume found * kernel.disk.sectorSize) + (0 : Nat)) :=
    ⟨_, rfl⟩
  have whole : start % 512 = 0 := by
    rw [position, mounted.sectorSize]
    unfold peachosSectorSize i32
    omega
  obtain ⟨sought, seek, only', present⟩ :=
    diskstreamerSeek_at (mounted.of_onlyStreams only).clusterReadStream start
  obtain ⟨out, last, done, length⟩ :=
    diskstreamerRead_sectors present whole (min total (clusterBytes volume))
  have moved := (diskstreamerRead_readsStreams.moves sought _ _ sought _ last (.refl _) done).1
  have amount : (if (total : Int) > (clusterBytes volume : Nat)
      then ((clusterBytes volume : Nat) : Int) else (total : Int)) =
        (min total (clusterBytes volume) : Nat) := by
    split <;> omega
  have delivered : 0 ≤ clusterPos volume found.toNat →
      clusterPos volume found.toNat + clusterBytes volume ≤ 2147483648 →
      out = window kernel.drive (clusterPos volume found.toNat).toNat
        (min total (clusterBytes volume)) := by
    intro lower upper
    have exact := @clusterPos_eq _ _ mounted found.toNat 0 lower (by omega)
    rw [Int.toNat_of_nonneg above, ← position, Int.natCast_zero, Int.add_zero] at exact
    obtain ⟨pos, same⟩ := Int.eq_ofNat_of_zero_le lower
    rw [exact, same] at present
    rw [same] at upper ⊢
    have aligned : pos % 512 = 0 := by
      rw [exact, same] at whole
      omega
    obtain ⟨_, done', _⟩ := diskstreamerRead_delivers.run present
      (show SectorRequest pos (min total (clusterBytes volume)) from
        ⟨.inl aligned, by omega, by omega⟩)
    rw [done] at done'
    rw [(Prod.mk.inj (Prod.mk.inj (Except.ok.inj done')).1).2, only'.drive, only.drive]
    rfl
  refine ⟨out, last, (only.trans only').trans moved, length, delivered, ?_⟩
  rw [fat16ReadInternalCalls_piece, bind_of_ok (loadPrivate_run mounted),
    bind_of_ok (run_read _ _),
    bind_of_ok ((fat16GetClusterForOffset_eq mounted cluster links).trans walk),
    if_neg (by omega), sizeOfClusterBytes_eq mounted, bind_of_ok (remainder_run positive),
    fat16ReadPiece, Nat.mul_mod_left, ← position]
  dsimp only
  rw [amount, bind_of_ok seek, if_neg (not_not.mpr rfl)]
  refine (bind_of_ok done).trans ?_
  rfl

/-- **Accepted chains** are read: the bytes of their clusters, one after the other, where these lie
at positions that an `int` can hold. -/
theorem fat16ReadInternalCalls_accepted {cluster : Int} (above : 0 ≤ cluster) :
    ∀ (calls links total : Nat) (kernel : Kernel), Mounted volume kernel → total < calls →
      links * clusterBytes volume + total ≤ 2147483648 →
      (∀ piece, piece = 0 ∨ piece * clusterBytes volume < total →
        LinksAccepted volume kernel.drive (links + piece) cluster) →
      ∃ out next, (fat16ReadInternalCalls diskstreamerRead volume.clusterReadStream cluster calls
          (links * clusterBytes volume : Nat) total).run kernel = .ok ((0, out), next) ∧
        out.length = total ∧
        (ChainPlaced volume kernel.drive cluster links total →
          out = window (chainByte volume kernel.drive cluster) (links * clusterBytes volume)
            total) := by
  intro calls
  induction calls with
  | zero =>
      intro links total kernel _ enough
      omega
  | succ calls ih =>
      intro links total kernel mounted enough bounded accepted
      have positive := clusterBytes_positive mounted
      have first := accepted 0 (.inl rfl)
      obtain ⟨walked, walk, only⟩ := fat16GetClusterLoop_accepted links cluster kernel mounted first
      obtain ⟨out, last, only', length, exact, same⟩ := @fat16ReadInternalCalls_once _ _ mounted _ _
        _ total _ walk (first.linkedCluster_nonneg above) only calls
      have head : ChainPlaced volume kernel.drive cluster links total →
          out = window (chainByte volume kernel.drive cluster) (links * clusterBytes volume)
            (min total (clusterBytes volume)) := by
        intro placed
        rw [window_chainByte _ _ _ _ (Nat.min_le_right _ _)]
        rcases Nat.eq_zero_or_pos total with rfl | some
        · rw [Nat.zero_min] at length ⊢
          exact List.length_eq_zero_iff.mp length
        · obtain ⟨lower, upper⟩ := placed 0 (by omega)
          exact exact lower upper
      rw [same]
      by_cases more : (total : Int) - (min total (clusterBytes volume) : Nat) > 0
      · have least : min total (clusterBytes volume) = clusterBytes volume := by omega
        have after : i32 ((links * clusterBytes volume : Nat) + (clusterBytes volume : Nat)) =
            ((links + 1) * clusterBytes volume : Nat) := by
          rw [← Int.natCast_add, ← Nat.succ_mul, i32_natCast (by rw [Nat.succ_mul]; omega)]
        rw [if_pos more]
        rw [least] at length head ⊢
        obtain ⟨rest, next, run, length', tail⟩ := ih (links + 1) (total - clusterBytes volume) last
          (mounted.of_onlyStreams only') (by omega) (by rw [Nat.succ_mul]; omega) (by
            rw [only'.drive]
            intro piece inside
            rw [Nat.add_assoc, Nat.add_comm 1]
            refine accepted (piece + 1) (.inr ?_)
            rw [Nat.succ_mul]
            rcases inside with rfl | inside <;> omega)
        rw [after, show (total : Int) - (clusterBytes volume : Nat) =
          (total - clusterBytes volume : Nat) by omega]
        refine ⟨out ++ rest, next, (bind_of_ok run).trans (run_pure _ _), ?_, fun placed => ?_⟩
        · rw [List.length_append, length, length']
          omega
        · rw [only'.drive] at tail
          rw [head placed, tail ?_, Nat.succ_mul, window_append, Nat.add_sub_cancel' (by omega)]
          intro piece inside
          rw [Nat.add_assoc, Nat.add_comm 1]
          refine placed (piece + 1) ?_
          rw [Nat.succ_mul]
          omega
      · have whole : min total (clusterBytes volume) = total := by omega
        rw [if_neg more]
        rw [whole] at length head
        exact ⟨out, last, run_pure _ _, length, head⟩

/-- A read that succeeds followed accepted links. -/
theorem fat16ReadInternalCalls_read {cluster : Int} :
    ∀ (calls links total : Nat) (kernel : Kernel) {out : List UInt8} {next : Kernel},
      Mounted volume kernel → links * clusterBytes volume + total ≤ 2147483648 →
      (fat16ReadInternalCalls diskstreamerRead volume.clusterReadStream cluster calls
        (links * clusterBytes volume : Nat) total).run kernel = .ok ((0, out), next) →
      (∀ piece, piece = 0 ∨ piece * clusterBytes volume < total →
        LinksAccepted volume kernel.drive (links + piece) cluster) ∧
      ∃ found walked, (fat16GetClusterLoop diskstreamerRead links cluster).run kernel =
        .ok (found, walked) ∧ 0 ≤ found := by
  intro calls
  induction calls with
  | zero => exact fun _ _ _ _ _ _ _ run => nomatch run
  | succ calls ih =>
      intro links total kernel out next mounted bounded run
      have positive := clusterBytes_positive mounted
      have peeled := run
      rw [fat16ReadInternalCalls_piece, bind_of_ok (loadPrivate_run mounted),
        bind_of_ok (run_read _ _)] at peeled
      obtain ⟨found, walked, walk, peeled⟩ := bind_eq_ok.mp peeled
      rw [fat16GetClusterForOffset_eq mounted] at walk
      have only := (fat16GetClusterLoop_streams diskstreamerRead_readsStreams links cluster kernel
        found walked (.refl kernel) walk).1
      have arrived : 0 ≤ found := by
        by_contra below
        rw [if_pos (by omega)] at peeled
        cases peeled
        exact below le_rfl
      have here := fat16GetClusterLoop_arrived links cluster kernel mounted walk arrived
      refine ⟨fun piece inside => ?_, found, walked, walk, arrived⟩
      obtain ⟨first, last, only', length, _, same⟩ :=
        @fat16ReadInternalCalls_once _ _ mounted _ _ _ total _ walk arrived only calls
      rw [same] at run
      cases piece with
      | zero => exact here
      | succ piece =>
          have within : (piece + 1) * clusterBytes volume < total :=
            inside.resolve_left (Nat.succ_ne_zero _)
          rw [Nat.succ_mul] at within
          have least : min total (clusterBytes volume) = clusterBytes volume := by omega
          have after : i32 ((links * clusterBytes volume : Nat) + (clusterBytes volume : Nat)) =
              ((links + 1) * clusterBytes volume : Nat) := by
            rw [← Int.natCast_add, ← Nat.succ_mul, i32_natCast (by rw [Nat.succ_mul]; omega)]
          rw [least, if_pos (by omega), after, show (total : Int) - (clusterBytes volume : Nat) =
            (total - clusterBytes volume : Nat) by omega] at run
          obtain ⟨⟨res, rest⟩, middle, run', done⟩ := bind_eq_ok.mp run
          cases done
          have accepted := (ih (links + 1) (total - clusterBytes volume) last
            (mounted.of_onlyStreams only') (by rw [Nat.succ_mul]; omega) run').1 piece
              (.inr (by omega))
          rw [only'.drive, Nat.add_assoc, Nat.add_comm 1] at accepted
          exact accepted

/-- **A read from the start of the chain** succeeds exactly when its links are accepted. -/
theorem fat16ReadInternal_accepted (mounted : Mounted volume kernel) {cluster : Int} {total : Nat}
    (accepted : ChainAccepted volume kernel.drive cluster total) (bounded : total ≤ 2147483648) :
    ∃ out next, (fat16ReadInternal diskstreamerRead cluster 0 total).run kernel =
        .ok ((0, out), next) ∧ out.length = total ∧
      (ChainPlaced volume kernel.drive cluster 0 total →
        out = window (chainByte volume kernel.drive cluster) 0 total) := by
  obtain ⟨out, next, run, length, exact⟩ := fat16ReadInternalCalls_accepted accepted.1
    ((total : Int).toNat + 1) 0 total kernel mounted (by omega) (by omega) (by
      intro piece inside
      rw [Nat.zero_add]
      exact accepted.2 piece inside)
  rw [Nat.zero_mul] at run exact
  refine ⟨out, next, ?_, length, exact⟩
  rw [fat16ReadInternal, bind_of_ok (loadPrivate_run mounted)]
  exact run

theorem fat16ReadInternal_read (mounted : Mounted volume kernel) {cluster : Int} {total : Nat}
    (bounded : total ≤ 2147483648) {out : List UInt8}
    (run : (fat16ReadInternal diskstreamerRead cluster 0 total).run kernel = .ok ((0, out), next)) :
    ChainAccepted volume kernel.drive cluster total := by
  rw [fat16ReadInternal, bind_of_ok (loadPrivate_run mounted)] at run
  obtain ⟨accepted, found, walked, walk, arrived⟩ := fat16ReadInternalCalls_read
    ((total : Int).toNat + 1) 0 total kernel mounted (by omega) (by rw [Nat.zero_mul]; exact run)
  cases walk
  refine ⟨arrived, fun piece inside => ?_⟩
  rw [← Nat.zero_add piece]
  exact accepted piece inside

end Walk

end Peachos
