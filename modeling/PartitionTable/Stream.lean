import PartitionTable.Reader

/-! A reader as a stream of bytes. A stream sorts faults into the few classes that generic
callers act upon; the fault itself stays attached. -/
namespace PartitionTable

inductive StreamClass where
  | invalidInput
  | invalidData
  | unexpectedEnd
  | interrupted
  | notConnected
  | outOfMemory
  | other
  deriving DecidableEq, Repr

def Fault.streamClass : Fault → StreamClass
  | invalidArgument | outOfBounds | valueExceedsMaximum => .invalidInput
  | sizeMismatch | invalidSignature | unsupportedLayout => .invalidData
  | readFailed => .unexpectedEnd
  | cancelled => .interrupted
  | notOpen => .notConnected
  | insufficientMemory => .outOfMemory
  | writeFailed | alreadySet | alreadyOpen => .other

/-- Where a stream is moved to. Offsets from the start are unsigned. -/
inductive StreamPosition where
  | start (offset : Nat)
  | current (offset : Int)
  | finish (offset : Int)
  deriving DecidableEq, Repr

namespace Stream

def read (length : Nat) : Act (Reader σ × World σ) (List UInt8) := Reader.read length

def seek : StreamPosition → Act (Reader σ × World σ) Nat
  | .start offset => do
    let offset ← .ofExcept (Offset.checked offset)
    Reader.seek offset .start
  | .current offset => Reader.seek offset .cursor
  | .finish offset => Reader.seek offset .finish

end Stream
end PartitionTable
