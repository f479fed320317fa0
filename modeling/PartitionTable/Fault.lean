/-! Everything that can go wrong, by cause. A fault is a value: where it arises decides
which constructor it is, and `message` is the only place that words it. -/
namespace PartitionTable

inductive Fault where
  | invalidArgument
  | sizeMismatch
  | invalidSignature
  | unsupportedLayout
  | outOfBounds
  | valueExceedsMaximum
  | readFailed
  | writeFailed
  | alreadySet
  | alreadyOpen
  | notOpen
  | insufficientMemory
  | cancelled
  deriving DecidableEq, Repr

namespace Fault

def message : Fault → String
  | invalidArgument => "Invalid argument"
  | sizeMismatch => "Buffer size does not match structure size"
  | invalidSignature => "Invalid boot record signature"
  | unsupportedLayout => "Unsupported partition table layout"
  | outOfBounds => "Value out of bounds"
  | valueExceedsMaximum => "Value exceeds maximum"
  | readFailed => "Read operation failed"
  | writeFailed => "Write operation failed"
  | alreadySet => "Value already set"
  | alreadyOpen => "Volume already open"
  | notOpen => "Volume or backing store not open"
  | insufficientMemory => "Insufficient memory"
  | cancelled => "Operation cancelled"

/-- A record read with the wrong sector size lands on bytes without a trailer, or past the
end of the store. Only these two outcomes are worth a second try with larger sectors. -/
def suggestsLargerSectors : Fault → Bool
  | invalidSignature | readFailed => true
  | _ => false

/-- The caller withdrew: nothing is known to be wrong with the disk. -/
def isWithdrawal : Fault → Bool
  | cancelled | notOpen => true
  | _ => false

end Fault
end PartitionTable
