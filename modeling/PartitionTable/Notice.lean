import PartitionTable.Extent
import PartitionTable.HostError
import PartitionTable.Numeral

/-! What is reported along the way, beside results. A notice says what happened; its level
and its text are functions of that, so a reader of the log and a theorem about it look at the
same values. -/
namespace PartitionTable

inductive Level where
  | trace
  | debug
  | warn
  | error
  deriving DecidableEq, Repr

namespace Level

def name : Level → String
  | trace => "TRACE"
  | debug => "DEBUG"
  | warn => "WARN"
  | error => "ERROR"

def severity : Level → Nat
  | trace => 0
  | debug => 1
  | warn => 2
  | error => 3

end Level

inductive Notice where
  | readingRecord (offset : Nat)
  | shortRecord (offset count : Nat)
  | masterRecord (identity : UInt32)
  | entryFound (entry : Entry)
  | severalExtended (table : Int)
  | readingLink (offset : Int)
  | retrying (size : UInt32)
  | linkUnreadable (offset : Int) (fault : Fault)
  | linkUnsupported (offset : Int)
  | chainTooLong (limit : Nat)
  | chainResolved (partitions records : Nat) (size : UInt32)
  | volumeOpened (size partitions : Nat)
  | storeNotClosed (fault : Fault)
  | shortProbe (count : Nat)
  | fileSystemSector
  | cacheMiss (key : Int)
  | cacheEviction (key : Int)
  | readingSector (offset length : Nat)
  | shortSector (offset count length : Nat)
  | fileNotOpened (path : String) (error : HostError)
  | fileNotMeasured (path : String) (error : HostError)
  | fileNotRead (path : String) (position : Nat) (error : HostError)
  | blocksNotCounted (error : String)
  | blocksNotRead (first : Nat) (error : String)
  | volumeUnreadable (source : String) (fault : Fault)
  deriving DecidableEq, Repr

namespace Notice

def level : Notice → Level
  | readingRecord .. | entryFound .. | cacheMiss .. | cacheEviction .. | readingSector .. => .trace
  | masterRecord .. | readingLink .. | retrying .. | chainResolved .. | volumeOpened ..
  | fileSystemSector => .debug
  | shortRecord .. | severalExtended .. | linkUnreadable .. | linkUnsupported .. | chainTooLong ..
  | storeNotClosed .. | shortProbe .. | shortSector .. | fileNotOpened .. | fileNotMeasured ..
  | fileNotRead .. | blocksNotCounted .. | blocksNotRead .. => .warn
  | volumeUnreadable .. => .error

def text : Notice → String
  | readingRecord offset => s!"reading boot record at offset {offset} (0x{Numeral.hex 8 offset})"
  | shortRecord offset count =>
    s!"short boot record read at offset {offset}: {count} of {BootRecord.size} bytes"
  | masterRecord identity => s!"master boot record: disk identity 0x{Numeral.hex 8 identity.toNat}"
  | entryFound entry => s!"partition entry {entry.slot.val}: type 0x{Numeral.hex 2 entry.kind.code.toNat}, " ++
    s!"start {entry.firstSector}, {entry.sectorCount} sectors"
  | severalExtended table => s!"more than one extended partition entry at offset {table}"
  | readingLink offset =>
    s!"reading extended partition record at offset {offset} (0x{Numeral.signedHex 8 offset})"
  | retrying size => s!"retrying with {size} bytes per sector"
  | linkUnreadable offset fault =>
    s!"unable to read extended partition record at offset {offset}: {fault.message}"
  | linkUnsupported offset => s!"unsupported extended partition record offset {offset}"
  | chainTooLong limit => s!"extended partition chain exceeds maximum depth {limit}"
  | chainResolved partitions records size =>
    s!"resolved {partitions} partitions over {records} boot records, {size} bytes per sector"
  | volumeOpened size partitions => s!"opened volume: {size} bytes, {partitions} partitions"
  | storeNotClosed fault => s!"unable to close backing store: {fault.message}"
  | shortProbe count => s!"short read of first sector: {count} of {BootRecord.size} bytes"
  | fileSystemSector => "boot signature present but sector is a file system boot sector"
  | cacheMiss key => s!"sector cache miss at offset {key}"
  | cacheEviction key => s!"evicting cached sector at offset {key}"
  | readingSector offset length => s!"reading {length} bytes at offset {offset}"
  | shortSector offset count length =>
    s!"short partition read at offset {offset}: {count} of {length} bytes"
  | fileNotOpened path error => s!"unable to open {path}: {error.message}"
  | fileNotMeasured path error => s!"unable to stat {path}: {error.message}"
  | fileNotRead path position error => s!"read of {path} at {position} failed: {error.message}"
  | blocksNotCounted error => s!"unable to query block count: {error}"
  | blocksNotRead first error => s!"block read at lba {first} failed: {error}"
  | volumeUnreadable source fault => s!"unable to read volume {source}: {fault.message}"

def isWarning (notice : Notice) : Bool := notice.level == .warn

end Notice
end PartitionTable
