import Peachos.Disk.Streamer

/-! # What a stream read delivers

One call copies up to a sector's worth from the offset of the position in its sector.
It stays inside the sector buffer only when the copy ends with the sector, so a read is
exact when it starts on a sector boundary or ends in the sector it starts in.
-/

namespace Peachos

open CInt Window

theorem ataSector_small {lba : Nat} (small : lba < 268435456) : ataSector lba = lba := by
  have device : ((lba / 16777216 % 256) ||| 0xE0) % 16 = lba / 16777216 % 256 % 16 := by
    rw [show 16 = 2 ^ 4 by rfl, Nat.or_mod_two_pow]
    exact Nat.or_zero _
  unfold ataSector
  simp only [@u32_natCast lba (by omega), device]
  omega

/-- The sector of a stream position is read into the buffer. -/
theorem diskReadBlock_sector {pos : Nat} (small : pos < 2147483648) (kernel : Kernel) :
    (diskReadBlock .disk (u32 (pos / peachosSectorSize : Nat)) 1).run kernel =
      .ok ((0, window kernel.drive (pos / peachosSectorSize * peachosSectorSize)
        peachosSectorSize), kernel) := by
  have sector : pos / peachosSectorSize < 4194304 := by
    unfold peachosSectorSize
    omega
  rw [diskReadBlock, if_neg (by simp), u32_natCast (by omega), i32_natCast (by omega)]
  unfold diskReadSector
  rw [Exec.bind_of_ok (Exec.run_read ..), Exec.run_pure, ataSector_small (by omega)]
  rfl

section Copy

variable {drive : Nat → UInt8} {start length : Nat}

theorem readBuffer_window {index : Nat} (inside : index < length) (kernel : Kernel) :
    (readBuffer (window drive start length) index).run kernel =
      .ok (drive (start + index), kernel) := by
  apply Exec.demand_of_some
  rw [if_pos (by omega), Int.toNat_natCast, getElem?_window inside]

/-- A copy inside the buffer delivers consecutive bytes. -/
theorem copyBuffer_inside {kernel : Kernel} {count : Nat} :
    ∀ index : Nat, index + count ≤ length →
      (copyBuffer (window drive start length) count index).run kernel =
        .ok (window drive (start + index) count, kernel) := by
  induction count with
  | zero => intro index _; rfl
  | succ count ih =>
      intro index inside
      have rest := ih (index + 1) (by omega)
      rw [Int.natCast_succ] at rest
      rw [copyBuffer, Exec.bind_of_ok (readBuffer_window (by omega) kernel),
        Exec.bind_of_ok rest, Exec.run_pure, window_succ, Nat.add_assoc]

/-- A copy that does not end inside the buffer indexes past its end. -/
theorem copyBuffer_overrun {kernel : Kernel} {count : Nat} :
    ∀ index : Nat, index ≤ length → length < index + count →
      (copyBuffer (window drive start length) count index).run kernel =
        .error (.bufferIndex length) := by
  induction count with
  | zero => intro index _ outside; omega
  | succ count ih =>
      intro index inside outside
      by_cases last : index = length
      · have stopped : (readBuffer (window drive start length) index).run kernel =
            .error (.bufferIndex length) := by
          unfold readBuffer Exec.demand
          rw [Exec.run_of, if_pos (by omega), last, Int.toNat_natCast,
            List.getElem?_eq_none (by rw [length_window])]
        rw [copyBuffer, Exec.bind_of_error stopped]
      · have stopped := ih (index + 1) (by omega) (by omega)
        rw [Int.natCast_succ] at stopped
        rw [copyBuffer, Exec.bind_of_ok (readBuffer_window (by omega) kernel)]
        exact Exec.bind_of_error stopped

end Copy

/-- The object at a stream pointer, for a stream of the disk. -/
def streamAt (pos : Nat) : Obj := .diskStream { pos := pos, disk := .disk }

/-- The object of a stream that was read from `pos` on. -/
def streamPast (pos total : Nat) : Obj :=
  .diskStream { pos := i32 (pos + total : Nat), disk := .disk }

theorem streamPast_eq {pos total : Nat} (bounded : pos + total < 2147483648) :
    streamPast pos total = streamAt (pos + total) := by
  unfold streamPast streamAt
  rw [i32_natCast bounded]

section Calls

variable {kernel : Kernel} {stream pos total : Nat}

/-- What one call copies. -/
theorem totalToRead_eq (total : Nat) :
    (if (total : Int) > peachosSectorSize then (peachosSectorSize : Int) else (total : Int)) =
      (min total 512 : Nat) := by
  unfold peachosSectorSize
  split <;> omega

theorem tdiv_sectorSize (pos : Nat) :
    (pos : Int).tdiv peachosSectorSize = (pos / peachosSectorSize : Nat) := rfl

theorem tmod_sectorSize (pos : Nat) :
    (pos : Int).tmod peachosSectorSize = (pos % 512 : Nat) := rfl

/-- **One call.** The call copies up to a sector's worth from the position on and
moves the stream; what is left is read by the next call. -/
theorem diskstreamerReadCalls_step {calls : Nat}
    (present : kernel.objs stream = some (streamAt pos)) (small : pos < 2147483648)
    (inside : pos % 512 + min total 512 ≤ 512) :
    (diskstreamerReadCalls stream (calls + 1) total).run kernel =
      ((if (total : Int) > peachosSectorSize then do
          let (res, rest) ← diskstreamerReadCalls stream calls (total - peachosSectorSize : Int)
          pure (res, window kernel.drive pos (min total 512) ++ rest)
        else pure ((0 : Int), window kernel.drive pos (min total 512))) :
        K (Int × List UInt8)).run
        (kernel.setObj stream (some (.diskStream
          { pos := i32 (pos + min total 512 : Nat), disk := .disk }))) := by
  have loaded : (load Obj.diskStream? stream).run kernel =
      .ok ({ pos := pos, disk := .disk }, kernel) := load_of_obj present rfl
  have copied : (copyBuffer (window kernel.drive (pos / 512 * 512) 512) (min total 512)
      (pos % 512 : Nat)).run kernel = .ok (window kernel.drive pos (min total 512), kernel) := by
    rw [copyBuffer_inside _ inside, show pos / 512 * 512 + pos % 512 = pos by omega]
  rw [diskstreamerReadCalls, Exec.bind_of_ok loaded]
  simp only [totalToRead_eq, tdiv_sectorSize, tmod_sectorSize]
  rw [Exec.bind_of_ok (diskReadBlock_sector small kernel)]
  simp only [Int.lt_irrefl, if_false, Int.toNat_natCast]
  rw [Exec.bind_of_ok copied, Exec.bind_of_ok loaded,
    Exec.bind_of_ok (store_of_live (by rw [present]; rfl))]
  rfl

/-- A copy that leaves the sector stops the first call. -/
theorem diskstreamerReadCalls_overrun (calls : Nat)
    (present : kernel.objs stream = some (streamAt pos)) (small : pos < 2147483648)
    (outside : 512 < pos % 512 + min total 512) :
    (diskstreamerReadCalls stream (calls + 1) total).run kernel =
      .error (.bufferIndex 512) := by
  have loaded : (load Obj.diskStream? stream).run kernel =
      .ok ({ pos := pos, disk := .disk }, kernel) := load_of_obj present rfl
  have stopped : (copyBuffer (window kernel.drive (pos / 512 * 512) 512) (min total 512)
      (pos % 512 : Nat)).run kernel = .error (.bufferIndex 512) :=
    copyBuffer_overrun _ (by omega) outside
  rw [diskstreamerReadCalls, Exec.bind_of_ok loaded]
  simp only [totalToRead_eq, tdiv_sectorSize, tmod_sectorSize]
  rw [Exec.bind_of_ok (diskReadBlock_sector small kernel)]
  simp only [Int.lt_irrefl, if_false, Int.toNat_natCast]
  exact Exec.bind_of_error stopped

/-- A read that starts on a sector boundary or ends in its first sector delivers the
bytes of the disk and leaves everything but the stream position as it was. -/
theorem diskstreamerReadCalls_exact {calls : Nat} :
    ∀ (kernel : Kernel) (pos total : Nat), total / 512 < calls →
      kernel.objs stream = some (streamAt pos) → pos < 2147483648 →
      pos + total ≤ 2147483648 → (pos % 512 = 0 ∨ pos % 512 + total ≤ 512) →
      (diskstreamerReadCalls stream calls total).run kernel =
        .ok ((0, window kernel.drive pos total), kernel.setObj stream (some (streamPast pos total))) := by
  induction calls with
  | zero => intro kernel pos total enough; omega
  | succ calls ih =>
      intro kernel pos total enough present posInt bounded shape
      rw [diskstreamerReadCalls_step present posInt (by omega)]
      by_cases more : (total : Int) > peachosSectorSize
      · rw [if_pos more]
        unfold peachosSectorSize at more ⊢
        have moved : i32 (pos + min total 512 : Nat) = (pos + 512 : Nat) := by
          rw [show min total 512 = 512 by omega, i32_natCast (by omega)]
        have rest := ih (kernel.setObj stream (some (streamAt (pos + 512)))) (pos + 512)
          (total - 512) (by omega) (Kernel.setObj_objs_self ..) (by omega) (by omega) (by omega)
        rw [moved, show min total 512 = 512 by omega,
          show ((total : Int) - (512 : Nat)) = (total - 512 : Nat) by omega]
        refine (Exec.bind_of_ok rest).trans ?_
        rw [Exec.run_pure, Kernel.setObj_setObj, Kernel.setObj_drive, window_append,
          show 512 + (total - 512) = total by omega]
        unfold streamPast
        rw [show pos + 512 + (total - 512) = pos + total by omega]
      · rw [if_neg more, Exec.run_pure]
        unfold peachosSectorSize at more
        rw [show min total 512 = total by omega]
        rfl

end Calls

section Preservation

variable {invariant : Kernel → Prop}

theorem diskReadBlock_ensures (idisk : DiskPtr) (lba : Nat) (total : Int) :
    Exec.Ensures invariant (diskReadBlock idisk lba total) fun _ => True := by
  unfold diskReadBlock diskReadSector
  refine .ite (fun _ => .pure trivial) fun _ => ?_
  have drive : Exec.Ensures invariant (Exec.read Kernel.drive : K (Nat → UInt8)) fun _ => True :=
    .read fun _ _ => trivial
  exact .bind drive fun _ _ => .pure trivial

theorem copyBuffer_ensures (buf : List UInt8) (count : Nat) (index : Int) :
    Exec.Ensures invariant (copyBuffer buf count index) fun _ => True := by
  induction count generalizing index with
  | zero => exact .pure trivial
  | succ count ih =>
      exact .bind (.demand fun _ _ _ _ => trivial) fun _ _ =>
        .bind (ih (index + 1)) fun _ _ => .pure trivial

/-- A read changes nothing but the position of its stream. -/
theorem diskstreamerReadCalls_ensures {stream : Nat}
    (kept : ∀ kernel value pos, invariant kernel →
      kernel.objs stream = some (.diskStream value) →
      invariant (kernel.setObj stream (some (.diskStream { value with pos := i32 pos }))))
    (calls : Nat) (total : Int) :
    Exec.Ensures invariant (diskstreamerReadCalls stream calls total) fun _ => True := by
  induction calls generalizing total with
  | zero => exact .fault _
  | succ calls ih =>
      unfold diskstreamerReadCalls
      refine .bind (.demand fun _ _ _ _ => trivial) fun value _ => ?_
      refine .bind (diskReadBlock_ensures _ _ _) fun sector _ => ?_
      refine .ite (fun _ => .pure trivial) fun _ => ?_
      refine .bind (copyBuffer_ensures _ _ _) fun copied _ => ?_
      apply loadStore_ensures
      · intro kernel contents value holds present typed
        cases contents <;> cases typed
        exact kept kernel value _ holds present
      · intro value
        exact .ite (fun _ => .bind (ih _) fun _ _ => .pure trivial) fun _ => .pure trivial

/-- The stream is at a position that an `int` can hold. -/
def StreamBounded (stream : Nat) (kernel : Kernel) : Prop :=
  ∃ value, kernel.objs stream = some (.diskStream value) ∧ value.pos < 2147483648

theorem diskstreamerRead_bounded (stream : Nat) (total : Int) :
    Exec.Ensures (StreamBounded stream) (diskstreamerRead stream total) fun _ => True := by
  apply diskstreamerReadCalls_ensures
  intro kernel value pos _ _
  exact ⟨_, Kernel.setObj_objs_self .., i32_upper pos⟩

end Preservation

/-- The reader delivers the disk bytes `[pos, pos + total)` for the requests in question,
and moves its stream past them. -/
def Delivers (read : Nat → Int → K (Int × List UInt8)) (request : Nat → Nat → Prop) : Prop :=
  ∀ (kernel : Kernel) (stream pos total : Nat), request pos total →
    kernel.objs stream = some (streamAt pos) →
    (read stream total).run kernel =
      .ok ((0, window kernel.drive pos total), kernel.setObj stream (some (streamPast pos total)))

/-- A request that starts on a sector boundary or ends in the sector it starts in. -/
def SectorRequest (pos total : Nat) : Prop :=
  (pos % 512 = 0 ∨ pos % 512 + total ≤ 512) ∧ pos < 2147483648 ∧ pos + total ≤ 2147483648

/-- **Exact reads.** The bytes are delivered, the stream is moved, and nothing else in
the kernel changes. -/
theorem diskstreamerRead_delivers : Delivers diskstreamerRead SectorRequest := by
  intro kernel stream pos total request present
  obtain ⟨shape, posInt, bounded⟩ := request
  apply diskstreamerReadCalls_exact _ _ _ _ present posInt bounded shape
  rw [Int.toNat_natCast]
  exact Nat.lt_succ_self _

/-- The read writes the disk bytes `[pos, pos + total)` to `out`, moves the stream past
them, and indexes the sector buffer only inside it. -/
def ReadsExactly (kernel : Kernel) (stream pos total : Nat) : Prop :=
  ∃ res final, (diskstreamerRead stream total).run kernel =
      .ok ((res, window kernel.drive pos total), final) ∧
    final.objs stream = some (streamAt (pos + total))

section Exactness

variable {kernel : Kernel} {stream pos total : Nat}

/-- A stream read is exact if and only if it starts on a sector boundary or ends in the
sector it starts in, and it ends at a position that an `int` can hold. -/
theorem diskstreamerRead_exact_iff (present : kernel.objs stream = some (streamAt pos))
    (posInt : pos < 2147483648) :
    ReadsExactly kernel stream pos total ↔
      (pos % 512 = 0 ∨ pos % 512 + total ≤ 512) ∧ pos + total < 2147483648 := by
  constructor
  · rintro ⟨res, final, run, moved⟩
    refine ⟨?_, ?_⟩
    · by_contra shape
      have stopped := @diskstreamerReadCalls_overrun _ _ _ total ((total : Int).toNat / 512)
        present posInt (by omega)
      rw [diskstreamerRead, stopped] at run
      cases run
    · obtain ⟨⟨value, found, small⟩, _⟩ := diskstreamerRead_bounded stream total kernel _ final
        ⟨_, present, Int.ofNat_lt.mpr posInt⟩ run
      rw [moved] at found
      cases found
      exact Int.ofNat_lt.mp small
  · rintro ⟨shape, bounded⟩
    refine ⟨0, _, diskstreamerRead_delivers kernel stream pos total
      ⟨shape, posInt, bounded.le⟩ present, ?_⟩
    rw [Kernel.setObj_objs_self, streamPast_eq bounded]

end Exactness

/-- A kernel whose only object is a stream at the given position. -/
def streamKernel (pos : Nat) : Kernel where
  heap := { table := { entries := [] }, saddr := 0 }
  objs ptr := if ptr = 4096 then some (streamAt pos) else none

/-- Three sectors and a half are read from a sector boundary. -/
theorem diskstreamerRead_exact_aligned : ReadsExactly (streamKernel 1024) 4096 1024 1792 :=
  (diskstreamerRead_exact_iff rfl (by decide)).mpr (by decide)

/-- Four bytes that straddle a sector boundary run out of the sector buffer. -/
theorem diskstreamerRead_straddling :
    (streamKernel 510).objs 4096 = some (streamAt 510) ∧
      (diskstreamerRead 4096 4).run (streamKernel 510) = .error (.bufferIndex 512) ∧
      ¬ ReadsExactly (streamKernel 510) 4096 510 4 := by
  have stopped : (diskstreamerRead 4096 4).run (streamKernel 510) = .error (.bufferIndex 512) :=
    @diskstreamerReadCalls_overrun _ _ 510 4 0 rfl (by decide) (by decide)
  refine ⟨rfl, stopped, ?_⟩
  rintro ⟨res, final, run, _⟩
  exact absurd (stopped.symm.trans run) (by simp only [reduceCtorEq, not_false_eq_true])

end Peachos
