import PartitionTable.World

/-! A backing store: something that is opened and closed, has a size, and is read at an
offset. A store is the record of its five calls over a state that it may share with other
stores. Whether it is open can be asked without a trace; the other calls reply. -/
namespace PartitionTable

/-- What a read reports and what it left in the buffer. An honest store reports how many
bytes it left; nothing here depends on honesty. -/
structure Reading where
  count : Nat
  bytes : List UInt8
  deriving DecidableEq, Repr

namespace Reading

def ofBytes (bytes : List UInt8) : Reading := ⟨bytes.length, bytes⟩

def nothing : Reading := ofBytes []

/-- A buffer that held zeros before the read. -/
def buffer (reading : Reading) (length : Nat) : List UInt8 :=
  if reading.bytes.length = length then reading.bytes
  else reading.bytes.take length ++ List.replicate (length - reading.bytes.length) 0

@[simp] theorem length_buffer (reading : Reading) (length : Nat) :
    (reading.buffer length).length = length := by
  unfold buffer
  split
  · assumption
  · simp; omega

theorem buffer_eq_bytes (reading : Reading) (full : reading.bytes.length = length) :
    reading.buffer length = reading.bytes := by
  simp [buffer, full]

end Reading

structure Store (σ : Type) where
  isOpen : σ → Bool
  acquire : σ → Reply σ Unit
  release : σ → Reply σ Unit
  size : σ → Reply σ Nat
  /-- Length, then offset. -/
  read : Nat → Nat → σ → Reply σ Reading

inductive Call where
  | acquire
  | release
  | size
  | read (length offset : Nat)
  deriving DecidableEq, Repr

namespace Store

/-- The same store, with every call written down, newest first, under a label. -/
def recorded (label : ι) (store : Store σ) : Store (σ × List (ι × Call)) where
  isOpen s := store.isOpen s.1
  acquire s := (store.acquire s.1).mapState (·, (label, .acquire) :: s.2)
  release s := (store.release s.1).mapState (·, (label, .release) :: s.2)
  size s := (store.size s.1).mapState (·, (label, .size) :: s.2)
  read length offset s :=
    (store.read length offset s.1).mapState (·, (label, .read length offset) :: s.2)

end Store

def BootRecord.readFrom (store : Store σ) (offset : Int) : Act (World σ) BootRecord :=
  if offset < 0 then .fail .outOfBounds
  else do
    note (.readingRecord offset.toNat)
    let reading ← ask (store.read size offset.toNat)
    if reading.count = size then .ofExcept (decode (reading.buffer size))
    else refuse (.shortRecord offset.toNat reading.count) .readFailed

end PartitionTable
