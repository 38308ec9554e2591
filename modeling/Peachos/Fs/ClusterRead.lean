import Peachos.Fs.ClusterWalk

/-! # What a read through the cluster chain delivers

The recursion splits a request into pieces of a cluster's size from the requested offset
on, and reads each piece without a break from the disk. A piece that starts inside a
cluster therefore runs on into the cluster that follows on the disk, which need not be
the next one of the chain.
-/

namespace Peachos

open CInt Window

/-- The position of a cluster on the disk. -/
def clusterPos (volume : FatPrivate) (cluster : Nat) : Int :=
  (volume.rootDirectory.endingSectorPos + ((cluster : Int) - 2) *
    volume.header.sectorsPerCluster) * 512

/-- The position that a piece at a file offset is read from. -/
def piecePos (volume : FatPrivate) (drive : Nat → UInt8) (first offset : Nat) : Int :=
  clusterPos volume (fatChain volume drive first (offset / clusterBytes volume)) +
    (offset % clusterBytes volume : Nat)

/-- The pieces that a request from `offset` on is read in. -/
def requestPieces (volume : FatPrivate) (drive : Nat → UInt8) (first offset : Nat)
    (piece position : Nat) : UInt8 :=
  drive ((piecePos volume drive first (offset + piece * clusterBytes volume)).toNat + position)

/-- The first piece of a request lies on the disk, and the reader delivers it. -/
structure PieceReadable (request : Nat → Nat → Prop) (volume : FatPrivate)
    (drive : Nat → UInt8) (first offset total : Nat) : Prop where
  lower : 0 ≤ clusterPos volume (fatChain volume drive first (offset / clusterBytes volume))
  upper : piecePos volume drive first offset < 2147483648
  requested : request (piecePos volume drive first offset).toNat
    (min total (clusterBytes volume))

/-- The rest of a request is a request for the pieces after the first one. -/
theorem requestPieces_rest (volume : FatPrivate) (drive : Nat → UInt8) (first offset : Nat)
    (positive : 0 < clusterBytes volume) (count : Nat) :
    window (assembled (requestPieces volume drive first (offset + clusterBytes volume))
        (clusterBytes volume)) 0 count =
      window (assembled (requestPieces volume drive first offset) (clusterBytes volume))
        (clusterBytes volume) count := by
  apply window_congr
  intro index _
  unfold assembled requestPieces
  rw [Nat.zero_add, Nat.add_div_left _ positive, Nat.add_mod_left, Nat.succ_mul,
    Nat.add_right_comm offset, ← Nat.add_assoc]

section Read

variable {read : StreamRead} {request : Nat → Nat → Prop} {volume : FatPrivate} {kernel : Kernel}

/-- The code computes the position of a cluster without overflow. -/
theorem clusterPos_eq (mounted : Mounted volume kernel) {cluster offset : Nat}
    (lower : 0 ≤ clusterPos volume cluster)
    (upper : clusterPos volume cluster + offset < 2147483648) :
    i32 (i32 (fat16ClusterToSector volume cluster * kernel.disk.sectorSize) + offset) =
      clusterPos volume cluster + offset := by
  have clusterSize := mounted.sectorsPerCluster
  have ahead : 0 ≤ volume.rootDirectory.endingSectorPos := mounted.dataAfterRoot
  have notEmpty := mounted.clusterNotEmpty
  have within : ((cluster : Int) - 2) * volume.header.sectorsPerCluster < 4194304 := by
    unfold clusterPos at upper
    omega
  have small : (cluster : Int) - 2 < 4194304 := by nlinarith only [within, notEmpty]
  have step : i32 ((cluster : Int) - 2) = (cluster : Int) - 2 := i32_of_range (by omega) (by omega)
  have product : i32 (((cluster : Int) - 2) * volume.header.sectorsPerCluster) =
      ((cluster : Int) - 2) * volume.header.sectorsPerCluster := by
    refine i32_of_range ?_ (by omega)
    nlinarith only [clusterSize, notEmpty]
  have sector : fat16ClusterToSector volume cluster = volume.rootDirectory.endingSectorPos +
      ((cluster : Int) - 2) * volume.header.sectorsPerCluster := by
    unfold clusterPos at lower upper
    rw [fat16ClusterToSector, step, product, i32_of_range (by omega) (by omega)]
  have absolute : fat16ClusterToSector volume cluster * kernel.disk.sectorSize =
      clusterPos volume cluster := by
    rw [mounted.sectorSize, sector]
    rfl
  rw [absolute, @i32_of_range (clusterPos volume cluster) (by omega) (by omega),
    i32_of_range (by omega) (by omega)]

/-- **One piece.** A call delivers the first piece of the request and leaves the rest to
the next call. -/
theorem fat16ReadInternalCalls_step (delivers : Delivers read request)
    (entries : EntryRequests request) (mounted : Mounted volume kernel) {first : Nat}
    (small : first < 65536) {offset total : Nat}
    (accepted : Accepted volume kernel.drive first (offset / clusterBytes volume))
    (readable : PieceReadable request volume kernel.drive first offset total) (calls : Nat) :
    ∃ next, OnlyStreams kernel next ∧
      (fat16ReadInternalCalls read volume.clusterReadStream first (calls + 1) offset
          total).run kernel =
        (if (total : Int) - (min total (clusterBytes volume) : Nat) > 0 then do
          let (res, rest) ← fat16ReadInternalCalls read volume.clusterReadStream first calls
            (i32 (offset + (min total (clusterBytes volume) : Nat)))
            (total - (min total (clusterBytes volume) : Nat))
          pure (res, window kernel.drive (piecePos volume kernel.drive first offset).toNat
            (min total (clusterBytes volume)) ++ rest)
        else pure (0, window kernel.drive (piecePos volume kernel.drive first offset).toNat
          (min total (clusterBytes volume)))).run next := by
  obtain ⟨lower, upper, requested⟩ := readable
  have positive := clusterBytes_positive mounted
  obtain ⟨walked, walk, only⟩ :=
    fat16GetClusterForOffset_run delivers entries mounted small offset
  rw [if_pos accepted] at walk
  have pos : (piecePos volume kernel.drive first offset).toNat =
      piecePos volume kernel.drive first offset := Int.toNat_of_nonneg (by
    unfold piecePos
    omega)
  obtain ⟨sought, seek, only', present⟩ := diskstreamerSeek_run
    (mounted.of_onlyStreams only).clusterReadStream
    (piecePos volume kernel.drive first offset).toNat
  obtain ⟨next, done, only''⟩ := delivers.run present requested
  have amount : (if (total : Int) > (clusterBytes volume : Nat)
      then ((clusterBytes volume : Nat) : Int) else (total : Int)) =
        (min total (clusterBytes volume) : Nat) := by
    split <;> omega
  have start := clusterPos_eq mounted lower upper
  refine ⟨next, (only.trans only').trans only'', ?_⟩
  rw [fat16ReadInternalCalls, Exec.bind_of_ok (loadPrivate_run mounted),
    Exec.bind_of_ok (Exec.run_read _ _), sizeOfClusterBytes_eq mounted, Exec.bind_of_ok walk,
    if_neg (by omega), Exec.bind_of_ok (remainder_run positive)]
  simp only [amount]
  rw [start, ← piecePos, ← pos, Exec.bind_of_ok seek, if_neg (by decide)]
  refine (Exec.bind_of_ok done).trans ?_
  rw [only'.drive, only.drive]
  rfl

/-- A call whose walk meets a rejected entry fails. -/
theorem fat16ReadInternalCalls_rejected (delivers : Delivers read request)
    (entries : EntryRequests request) (mounted : Mounted volume kernel) {first : Nat}
    (small : first < 65536) {offset : Nat}
    (rejected : ¬ Accepted volume kernel.drive first (offset / clusterBytes volume))
    (total : Int) (calls : Nat) :
    ∃ next, OnlyStreams kernel next ∧
      (fat16ReadInternalCalls read volume.clusterReadStream first (calls + 1) offset
          total).run kernel = .ok ((-eio, []), next) := by
  obtain ⟨next, walk, only⟩ :=
    fat16GetClusterForOffset_run delivers entries mounted small offset
  rw [if_neg rejected] at walk
  refine ⟨next, only, ?_⟩
  rw [fat16ReadInternalCalls, Exec.bind_of_ok (loadPrivate_run mounted),
    Exec.bind_of_ok (Exec.run_read _ _)]
  dsimp only
  rw [Exec.bind_of_ok walk, if_pos (by decide), Exec.run_pure]

/-- The clusters of all pieces of a request are accepted. -/
def AcceptedUpTo (volume : FatPrivate) (drive : Nat → UInt8) (first offset total : Nat) :
    Prop :=
  ∀ piece, piece = 0 ∨ piece * clusterBytes volume < total →
    Accepted volume drive first (offset / clusterBytes volume + piece)

/-- **The recursion.** A request whose pieces lie on the disk delivers them in order when
their clusters are accepted, and fails after some of them otherwise. -/
theorem fat16ReadInternalCalls_run (delivers : Delivers read request)
    (entries : EntryRequests request) {first : Nat} (small : first < 65536) :
    ∀ (calls : Nat) (kernel : Kernel) (offset total : Nat), Mounted volume kernel →
      total < calls → offset + total ≤ 2147483648 →
      (∀ piece, piece = 0 ∨ piece * clusterBytes volume < total →
        PieceReadable request volume kernel.drive first (offset + piece * clusterBytes volume)
          (total - piece * clusterBytes volume)) →
      ∃ res out next, (fat16ReadInternalCalls read volume.clusterReadStream first calls offset
          total).run kernel = .ok ((res, out), next) ∧ OnlyStreams kernel next ∧
        (res = 0 ∧ out = window (assembled (requestPieces volume kernel.drive first offset)
            (clusterBytes volume)) 0 total ∨
          res = -eio ∧ out.length ≤ total ∧
            ¬ AcceptedUpTo volume kernel.drive first offset total) := by
  intro calls
  induction calls with
  | zero => intro kernel offset total _ enough; omega
  | succ calls ih =>
      intro kernel offset total mounted enough bounded readable
      have positive := clusterBytes_positive mounted
      have head := readable 0 (.inl rfl)
      rw [Nat.zero_mul, Nat.add_zero, Nat.sub_zero] at head
      by_cases accepted : Accepted volume kernel.drive first (offset / clusterBytes volume)
      · have piece : ∀ count ≤ clusterBytes volume,
            window kernel.drive (piecePos volume kernel.drive first offset).toNat count =
              window (assembled (requestPieces volume kernel.drive first offset)
                (clusterBytes volume)) 0 count := by
          intro count within
          apply window_congr
          intro index before
          unfold assembled requestPieces
          rw [Nat.zero_add, Nat.div_eq_of_lt (by omega), Nat.mod_eq_of_lt (by omega),
            Nat.zero_mul, Nat.add_zero]
        obtain ⟨middle, only, step⟩ :=
          fat16ReadInternalCalls_step delivers entries mounted small accepted head calls
        rw [step, piece _ (Nat.min_le_right ..)]
        by_cases more : (total : Int) - (min total (clusterBytes volume) : Nat) > 0
        · have full : min total (clusterBytes volume) = clusterBytes volume := by omega
          rw [if_pos more, full, i32_of_range (by omega) (by omega),
            show (offset : Int) + clusterBytes volume = (offset + clusterBytes volume : Nat) by
              omega,
            show (total : Int) - clusterBytes volume = (total - clusterBytes volume : Nat) by
              omega]
          obtain ⟨res, out, next, rest, only', outcome⟩ := ih middle
            (offset + clusterBytes volume) (total - clusterBytes volume)
            (mounted.of_onlyStreams only) (by omega) (by omega) (by
              intro piece within
              have later := readable (piece + 1) (by
                rw [Nat.succ_mul]
                rcases within with rfl | within <;> omega)
              rw [Nat.succ_mul, Nat.add_comm (piece * _), ← Nat.add_assoc, ← Nat.sub_sub] at later
              rw [only.drive]
              exact later)
          refine ⟨res, _, next, Exec.bind_of_ok rest, only.trans only', ?_⟩
          rw [only.drive] at outcome
          rcases outcome with ⟨rfl, rfl⟩ | ⟨rfl, short, rejected⟩
          · refine .inl ⟨rfl, ?_⟩
            have joined := window_append (assembled (requestPieces volume kernel.drive first offset)
              (clusterBytes volume)) 0 (clusterBytes volume) (total - clusterBytes volume)
            rw [Nat.zero_add] at joined
            rw [requestPieces_rest _ _ _ _ positive, joined,
              show clusterBytes volume + (total - clusterBytes volume) = total by omega]
          · refine .inr ⟨rfl, ?_, fun all => rejected fun piece within => ?_⟩
            · rw [List.length_append, length_window]
              omega
            · rw [Nat.add_div_right _ positive, Nat.succ_add_eq_add_succ]
              apply all (piece + 1)
              rw [Nat.succ_mul]
              rcases within with rfl | within <;> omega
        · rw [if_neg more, show min total (clusterBytes volume) = total by omega]
          exact ⟨0, _, middle, rfl, only, .inl ⟨rfl, rfl⟩⟩
      · obtain ⟨next, only, failed⟩ := fat16ReadInternalCalls_rejected delivers entries mounted
          small accepted total calls
        refine ⟨_, _, next, failed, only, .inr ⟨rfl, Nat.zero_le _, fun all => accepted ?_⟩⟩
        exact all 0 (.inl rfl)

end Read

end Peachos
