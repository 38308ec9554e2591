import Peachos.Foundation.CInt
import Peachos.Foundation.Exec

/-! # Constants, status codes and faults

The compile-time constants of `config.h`, `kernel.h` and `paging.h`, the error numbers
of `status.h`, and the ways in which a run of the kernel leaves the behaviour the C
language and the kernel's own checks define.
-/

namespace Peachos

def peachosHeapSizeBytes : Nat := 104857600
abbrev peachosHeapBlockSize : Nat := 4096
def peachosHeapAddress : Nat := 0x01000000
abbrev peachosSectorSize : Nat := 512
abbrev peachosMaxFileDescriptors : Nat := 512
abbrev peachosMaxPath : Nat := 108
abbrev peachosProgramVirtualAddress : Nat := 0x400000
abbrev peachosUserProgramStackSize : Nat := 1024 * 16
abbrev peachosProgramVirtualStackAddressStart : Nat := 0x3FF000
abbrev peachosProgramVirtualStackAddressEnd : Nat := 0x3FF000 - 1024 * 16
abbrev peachosMaxProcesses : Nat := 12
abbrev userDataSegment : Nat := 0x23
abbrev userCodeSegment : Nat := 0x1b

abbrev peachosAllOk : Int := 0
abbrev eio : Int := 1
abbrev einvagr : Int := 2
abbrev enomem : Int := 3
abbrev ebadpath : Int := 4
abbrev efsnotus : Int := 5
abbrev erdonly : Int := 6
abbrev eunimp : Int := 7
abbrev eistkn : Int := 8
abbrev einformat : Int := 9

/-- A step outside the behaviour that the source defines. -/
inductive Fault where
  /-- The heap table is accessed at an index that is not below `total`. -/
  | tableIndex (index : Int)
  /-- An array or buffer is accessed outside its bounds. -/
  | bufferIndex (index : Int)
  /-- A pointer is followed that is not a live object of the accessed type. -/
  | badPointer (address : Nat)
  /-- A pointer is freed that is not a live allocation. -/
  | badFree (address : Nat)
  /-- A division or remainder by zero. -/
  | divideByZero
  /-- A call of `panic`, which never returns. -/
  | panic (message : String)
  /-- A loop of the source that never ends. -/
  | diverges
  deriving DecidableEq, Repr

end Peachos
