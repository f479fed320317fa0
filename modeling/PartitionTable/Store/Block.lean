import PartitionTable.Image
import PartitionTable.Store

/-! A store over a device that reads whole blocks only. A read of some bytes becomes one read
of the smallest run of blocks that covers them, and the bytes are cut out of it. -/
namespace PartitionTable

/-- A device counts its blocks in an unsigned 64-bit number and words its own errors. -/
structure Device (δ : Type) where
  blockSize : UInt32
  blockCount : δ → Except String UInt64 × δ
  /-- First block, then number of blocks. What the device leaves out reads as zeros. -/
  readBlocks : Nat → Nat → δ → Except String Image × δ

structure Block (δ : Type) where
  device : δ
  isOpen : Bool := false
  deriving DecidableEq, Repr

namespace Block

/-- The number of bytes on the device, if it is an unsigned 64-bit number too. -/
def size (device : Device δ) (block : Block δ) : Reply (Block δ) Nat :=
  match device.blockCount block.device with
  | (.error message, later) =>
    .error .readFailed { block with device := later } [.blocksNotCounted message]
  | (.ok count, later) =>
    let total := count.toNat * device.blockSize.toNat
    if total ≤ Offset.addressLimit then .ok total { block with device := later }
    else .error .outOfBounds { block with device := later }

/-- Reads bytes that the device has. -/
def readCovering (device : Device δ) (offset length : Nat) (block : Block δ) :
    Reply (Block δ) Reading :=
  let blockSize := device.blockSize.toNat
  let first := offset / blockSize
  let count := (offset + length - 1) / blockSize - first + 1
  match device.readBlocks first count block.device with
  | (.error message, later) =>
    .error .readFailed { block with device := later } [.blocksNotRead first message]
  | (.ok contents, later) =>
    let blocks := contents.fit (count * blockSize)
    .ok (.ofBytes (blocks.slice (offset - first * blockSize) length)) { block with device := later }

def read (device : Device δ) (length offset : Nat) (block : Block δ) : Reply (Block δ) Reading :=
  if !block.isOpen then .error .notOpen block
  else if length = 0 then .ok .nothing block
  else
    let sized := size device block
    match sized.result with
    | .error fault => .error fault sized.state sized.notices
    | .ok total =>
      if total ≤ offset then .ok .nothing sized.state
      else readCovering device offset (min length (total - offset)) sized.state

def store (device : Device δ) : Store (Block δ) where
  isOpen := Block.isOpen
  acquire block := .ok () { block with isOpen := true }
  release block := .ok () { block with isOpen := false }
  size := size device
  read := read device

end Block
end PartitionTable
