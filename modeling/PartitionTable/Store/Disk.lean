import PartitionTable.Store.Block

/-! A block device over an image. As it comes it is sound: it reports as many blocks as fit
into the image and delivers exactly their bytes. It can also be given faults of its own. -/
namespace PartitionTable

/-- The runs of blocks that were asked for are kept, newest first. -/
structure Disk where
  image : Image
  reportedBlocks : Option UInt64 := none
  countFails : Bool := false
  badBlock : Option Nat := none
  reads : List (Nat × Nat) := []

namespace Disk

def readBlocks (blockSize : UInt32) (first count : Nat) (disk : Disk) :
    Except String Image × Disk :=
  let later := { disk with reads := (first, count) :: disk.reads }
  if disk.badBlock.any fun bad => first ≤ bad && bad < first + count then
    (.error "bad block", later)
  else if disk.image.size < (first + count) * blockSize.toNat then
    (.error "beyond end", later)
  else
    (.ok (disk.image.window (first * blockSize.toNat) (count * blockSize.toNat)), later)

def device (blockSize : UInt32) : Device Disk where
  blockSize
  blockCount disk :=
    if disk.countFails then (.error "count error", disk)
    else (.ok (disk.reportedBlocks.getD (UInt64.ofNat (disk.image.size / blockSize.toNat))), disk)
  readBlocks := readBlocks blockSize

end Disk
end PartitionTable
