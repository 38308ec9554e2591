import Peachos.Fs.RootBounds

/-! # Reads at any stream position

A stream position is an `int` that wraps around. A read that stays in one sector, or starts at one,
succeeds as long as the offset of the position in its sector is not negative; what it delivers comes
from the sector that the ports select.
-/

namespace Peachos

open CInt Window Exec

/-- The offset of the position in its sector is not negative. -/
def Addressable (pos : Int) : Prop := 0 ≤ pos ∨ pos % 512 = 0

instance (pos : Int) : Decidable (Addressable pos) := inferInstanceAs (Decidable (_ ∨ _))

theorem Addressable.tmod {pos : Int} (addressable : Addressable pos) :
    pos.tmod peachosSectorSize = pos % 512 := by
  rcases addressable with above | whole
  · exact Int.tmod_eq_emod_of_nonneg above
  · rw [whole]
    exact Int.tmod_eq_zero_of_dvd (Int.dvd_of_emod_eq_zero whole)

theorem tmod_of_not_addressable {pos : Int} (wild : ¬ Addressable pos) :
    pos.tmod peachosSectorSize < 0 := by
  unfold Addressable at wild
  have below : pos = -(-pos) := by omega
  rw [below, Int.neg_tmod, Int.tmod_eq_emod_of_nonneg (by omega)]
  unfold peachosSectorSize
  omega

/-- A stream of the disk at an `int` position. -/
def streamAtInt (pos : Int) : Obj := .diskStream { pos := pos, disk := .disk }

/-- The bytes that a read at the position delivers. -/
def bytesAt (drive : Nat → UInt8) (pos : Int) (total : Nat) : List UInt8 :=
  window drive (requestedByte pos).toNat total

theorem bytesAt_small (drive : Nat → UInt8) {pos : Nat} (small : pos < 2147483648) (total : Nat) :
    bytesAt drive pos total = window drive pos total := by
  rw [bytesAt, requestedByte_small small, Int.toNat_natCast]

section Read

variable {kernel : Kernel} {stream : Nat} {pos : Int} {total : Nat}

/-- **One call** at any position. -/
theorem diskstreamerReadCalls_once (present : kernel.objs stream = some (streamAtInt pos))
    (addressable : Addressable pos) (inside : pos % 512 + (min total 512 : Nat) ≤ 512)
    (calls : Nat) : (diskstreamerReadCalls stream (calls + 1) total).run kernel =
      ((if (total : Int) > peachosSectorSize then do
          let (res, rest) ← diskstreamerReadCalls stream calls (total - peachosSectorSize : Int)
          pure (res, bytesAt kernel.drive pos (min total 512) ++ rest)
        else pure ((0 : Int), bytesAt kernel.drive pos (min total 512))) :
        K (Int × List UInt8)).run
        (kernel.setObj stream (some (streamAtInt (i32 (pos + (min total 512 : Nat)))))) := by
  have loaded : (load Obj.diskStream? stream).run kernel =
      .ok ({ pos := pos, disk := .disk }, kernel) := load_of_obj present rfl
  obtain ⟨offset, same⟩ : ∃ offset : Nat, pos % 512 = offset :=
    ⟨(pos % 512).toNat, (Int.toNat_of_nonneg (by omega)).symm⟩
  have byte : (requestedByte pos).toNat = requestedSector pos * 512 + offset := by
    rw [requestedByte, addressable.tmod, same]
    omega
  have copied : (copyBuffer (window kernel.drive (requestedSector pos * peachosSectorSize)
      peachosSectorSize) (min total 512) offset).run kernel =
        .ok (bytesAt kernel.drive pos (min total 512), kernel) := by
    rw [copyBuffer_inside _ (show offset + min total 512 ≤ peachosSectorSize by
      unfold peachosSectorSize
      omega), bytesAt, byte]
  rw [diskstreamerReadCalls, bind_of_ok loaded]
  simp only [totalToRead_eq, addressable.tmod, same]
  rw [bind_of_ok (diskReadBlock_requestedSector pos kernel)]
  simp only [Int.lt_irrefl, if_false, Int.toNat_natCast]
  rw [bind_of_ok copied, bind_of_ok loaded,
    bind_of_ok (store_of_live (by rw [present]; rfl))]
  rfl

/-- A negative offset in the sector is out of the buffer. -/
theorem diskstreamerReadCalls_wild (present : kernel.objs stream = some (streamAtInt pos))
    (wild : ¬ Addressable pos) (positive : 1 ≤ total) (calls : Nat) :
    (diskstreamerReadCalls stream (calls + 1) total).run kernel =
      .error (.bufferIndex (pos.tmod peachosSectorSize)) := by
  have loaded : (load Obj.diskStream? stream).run kernel =
      .ok ({ pos := pos, disk := .disk }, kernel) := load_of_obj present rfl
  have below := tmod_of_not_addressable wild
  obtain ⟨count, more⟩ : ∃ count, min total 512 = count + 1 := ⟨min total 512 - 1, by omega⟩
  have stopped : ∀ buf, (readBuffer buf (pos.tmod peachosSectorSize)).run kernel =
      .error (.bufferIndex (pos.tmod peachosSectorSize)) := by
    intro buf
    unfold readBuffer Exec.demand
    rw [run_of, if_neg (by omega)]
  rw [diskstreamerReadCalls, bind_of_ok loaded]
  simp only [totalToRead_eq]
  rw [bind_of_ok (diskReadBlock_requestedSector pos kernel)]
  simp only [Int.lt_irrefl, if_false, Int.toNat_natCast, more]
  rw [copyBuffer]
  exact bind_of_error (bind_of_error (stopped _))

/-- A read of a part of a sector. -/
theorem diskstreamerRead_part (present : kernel.objs stream = some (streamAtInt pos))
    (addressable : Addressable pos) (small : total < 512) (inside : pos % 512 + total ≤ 512) :
    (diskstreamerRead stream total).run kernel = .ok ((0, bytesAt kernel.drive pos total),
      kernel.setObj stream (some (streamAtInt (i32 (pos + total))))) := by
  have least : min total 512 = total := by omega
  rw [diskstreamerRead, diskstreamerReadCalls_once present addressable (by omega), least,
    if_neg (by unfold peachosSectorSize; omega), run_pure]

/-- Such a read completes at an addressable position only. -/
theorem diskstreamerRead_completed (present : kernel.objs stream = some (streamAtInt pos))
    (positive : 1 ≤ total) {result : (Int × List UInt8) × Kernel}
    (run : (diskstreamerRead stream total).run kernel = .ok result) : Addressable pos := by
  by_contra wild
  rw [diskstreamerRead, diskstreamerReadCalls_wild present wild positive] at run
  cases run

/-- A read from the start of a sector on, of whatever length, succeeds. -/
theorem diskstreamerReadCalls_sectors : ∀ (calls total : Nat) (pos : Int) (kernel : Kernel),
    total / 512 < calls → pos % 512 = 0 → kernel.objs stream = some (streamAtInt pos) →
    ∃ out last, (diskstreamerReadCalls stream calls total).run kernel = .ok ((0, out), last) ∧
      out.length = total := by
  intro calls
  induction calls with
  | zero =>
      intro total pos kernel enough
      omega
  | succ calls ih =>
      intro total pos kernel enough whole present
      rw [diskstreamerReadCalls_once present (.inr whole) (by omega)]
      by_cases more : (total : Int) > peachosSectorSize
      · rw [if_pos more]
        unfold peachosSectorSize at more ⊢
        obtain ⟨out, last, run, length⟩ := ih (total - 512) (i32 (pos + 512))
          (kernel.setObj stream (some (streamAtInt (i32 (pos + 512))))) (by omega)
          (by unfold i32; omega) (Kernel.setObj_objs_self ..)
        rw [show min total 512 = 512 by omega,
          show ((total : Int) - (512 : Nat)) = (total - 512 : Nat) by omega]
        refine ⟨_, last, (bind_of_ok run).trans (run_pure _ _), ?_⟩
        rw [List.length_append, length, bytesAt, length_window]
        omega
      · rw [if_neg more, run_pure]
        unfold peachosSectorSize at more
        refine ⟨_, _, rfl, ?_⟩
        rw [bytesAt, length_window]
        omega

theorem diskstreamerRead_sectors (present : kernel.objs stream = some (streamAtInt pos))
    (whole : pos % 512 = 0) (total : Nat) :
    ∃ out last, (diskstreamerRead stream total).run kernel = .ok ((0, out), last) ∧
      out.length = total := by
  refine diskstreamerReadCalls_sectors _ total pos kernel ?_ whole present
  rw [Int.toNat_natCast]
  exact Nat.lt_succ_self _

end Read

end Peachos
