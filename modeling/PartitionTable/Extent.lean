import PartitionTable.BootRecord

/-! Where a partition lies: the table that lists it, and its first sector and length counted
from that table. Bytes come in only once a sector size is chosen. -/
namespace PartitionTable

structure Extent where
  kind : Kind
  table : Int
  firstSector : UInt32
  sectorCount : UInt32
  deriving DecidableEq, Repr

namespace Extent

def ofEntry (entry : Entry) (table : Int) : Extent where
  kind := entry.kind
  table
  firstSector := entry.firstSector
  sectorCount := entry.sectorCount

def start (extent : Extent) (bytesPerSector : UInt32) : Except Fault Int :=
  Offset.ofSector extent.table extent.firstSector bytesPerSector

def size (extent : Extent) (bytesPerSector : UInt32) : Nat :=
  Offset.sectorBytes extent.sectorCount bytesPerSector

end Extent
end PartitionTable
