import Peachos.Foundation.Window
import Peachos.Kernel.State

/-! # The disk and its stream

`disk.c` and `streamer.c`. A sector is read through the ATA ports, whose values select
one of `2 ^ 28` sectors. `diskstreamer_read` copies at most one sector's worth of bytes
out of the sector of the stream position and calls itself for the rest.
-/

namespace Peachos

open CInt Window

/-- The sector that the values written to the ports `0x1F3` to `0x1F6` select. -/
def ataSector (lba : Int) : Nat :=
  let word := u32 lba
  let device := (word / 16777216 % 256) ||| 0xE0
  word % 256 + 256 * (word / 256 % 256) + 65536 * (word / 65536 % 256) +
    16777216 * (device % 16)

/-- `disk_read_sector`: the drive delivers the bytes of `total` sectors from `lba` on. -/
def diskReadSector (lba total : Int) : K (Int × List UInt8) := do
  let drive ← Exec.read Kernel.drive
  pure (0, window drive (ataSector lba * peachosSectorSize)
    (total.toNat * peachosSectorSize))

def diskGet (index : Int) : DiskPtr := if index ≠ 0 then .null else .disk

/-- `disk_read_block` -/
def diskReadBlock (idisk : DiskPtr) (lba : Nat) (total : Int) : K (Int × List UInt8) :=
  if idisk ≠ .disk then pure (-eio, []) else diskReadSector (i32 lba) total

/-- `diskstreamer_new`, with `disk_stream` zeroed and its `disk` set. -/
def diskstreamerNew (diskId : Int) : K Nat := do
  let found := diskGet diskId
  if found = .null then pure 0
  else do
    let streamer ← kzalloc 8 (.diskStream {})
    let stream ← load Obj.diskStream? streamer
    store streamer (.diskStream { stream with pos := 0 })
    let stream ← load Obj.diskStream? streamer
    store streamer (.diskStream { stream with disk := found })
    pure streamer

def diskstreamerSeek (stream : Nat) (pos : Int) : K Int := do
  let value ← load Obj.diskStream? stream
  store stream (.diskStream { value with pos := pos })
  pure 0

/-- Read `buf[index]`. -/
def readBuffer (buf : List UInt8) (index : Int) : K UInt8 :=
  Exec.demand (.bufferIndex index) fun _ => if 0 ≤ index then buf[index.toNat]? else none

/-- The copy loop `*out++ = buf[offset + i]`; the result is what is written to `out`. -/
def copyBuffer (buf : List UInt8) : (count : Nat) → (index : Int) → K (List UInt8)
  | 0, _ => pure []
  | count + 1, index => do
      let byte ← readBuffer buf index
      let rest ← copyBuffer buf count (index + 1)
      pure (byte :: rest)

/-- The recursion of `diskstreamer_read`, which takes one call for each sector's worth. -/
def diskstreamerReadCalls (stream : Nat) : (calls : Nat) → (total : Int) → K (Int × List UInt8)
  | 0, _ => Exec.fault .diverges
  | calls + 1, total => do
      let value ← load Obj.diskStream? stream
      let sector := value.pos.tdiv peachosSectorSize
      let offset := value.pos.tmod peachosSectorSize
      let (res, buf) ← diskReadBlock value.disk (u32 sector) 1
      if res < 0 then pure (res, [])
      else do
        let totalToRead := if total > peachosSectorSize then (peachosSectorSize : Int) else total
        let copied ← copyBuffer buf totalToRead.toNat offset
        let value ← load Obj.diskStream? stream
        store stream (.diskStream { value with pos := i32 (value.pos + totalToRead) })
        if total > peachosSectorSize then do
          let (res, rest) ← diskstreamerReadCalls stream calls (total - peachosSectorSize)
          pure (res, copied ++ rest)
        else pure (res, copied)

/-- `diskstreamer_read`: the return value and the bytes written to `out`, in order. -/
def diskstreamerRead (stream : Nat) (total : Int) : K (Int × List UInt8) :=
  diskstreamerReadCalls stream (total.toNat / peachosSectorSize + 1) total

def diskstreamerClose (stream : Nat) : K Unit := kfree stream

end Peachos
