import PartitionTable.Cache
import PartitionTable.Store

/-! Reading inside one partition. A reader knows the byte range of its partition, holds a
cursor into it and keeps the sectors it read last. A read is served from whole sectors; the
cursor moves only when all of them were at hand. -/
namespace PartitionTable

structure Reader (σ : Type) where
  store : Store σ
  token : Token
  extent : Extent
  bytesPerSector : UInt32
  start : Int
  size : Nat
  cursor : Nat := 0
  cache : Cache

inductive Origin where
  | start
  | cursor
  | finish
  deriving DecidableEq, Repr

namespace Reader

/-- A reader over an extent, if its whole range consists of positions. -/
def ofExtent (extent : Extent) (store : Store σ) (token : Token) (bytesPerSector : UInt32)
    (cacheCapacity : Nat) : Except Fault (Reader σ) :=
  if bytesPerSector = 0 then .error .invalidArgument
  else do
    let start ← extent.start bytesPerSector
    let size := extent.size bytesPerSector
    let _ ← Offset.checked size
    let _ ← Offset.checked (start + size)
    return { store, token, extent, bytesPerSector, start, size, cache := .ofCapacity cacheCapacity }

def sectorStart (reader : Reader σ) (sector : Nat) : Int :=
  reader.start + sector * reader.bytesPerSector.toNat

/-- Reads one sector from the store. The token is asked before every read. -/
def load (reader : Reader σ) (sector : Nat) : Act (World σ) (List UInt8) := do
  let offset := reader.sectorStart sector
  let length := reader.bytesPerSector.toNat
  if ← isCancelled reader.token then .fail .cancelled
  else if offset < 0 then .fail .outOfBounds
  else do
    note (.readingSector offset.toNat length)
    let reading ← ask (reader.store.read length offset.toNat)
    if reading.count = length then return reading.buffer length
    else refuse (.shortSector offset.toNat reading.count length) .readFailed

def fetch (reader : Reader σ) (sector : Nat) : Act (Cache × World σ) (List UInt8) :=
  Cache.getOrLoad (reader.sectorStart sector) (reader.load sector)

/-- A number of sectors one after the other, up to the first that is not to be had. The pieces
already gathered stand in reverse. -/
def gather (reader : Reader σ) (sector : Nat) : Nat → List (List UInt8) → Cache × World σ →
    Except Fault (List UInt8) × Cache × World σ
  | 0, pieces, state => (.ok pieces.reverse.flatten, state)
  | count + 1, pieces, state =>
    match (reader.fetch sector).run state with
    | (.ok piece, state) => reader.gather (sector + 1) count (piece :: pieces) state
    | (.error fault, state) => (.error fault, state)

def sectorOf (reader : Reader σ) (offset : Nat) : Nat := offset / reader.bytesPerSector.toNat

/-- How many sectors a range of bytes touches. The range is not empty. -/
def sectorsTouched (reader : Reader σ) (offset length : Nat) : Nat :=
  reader.sectorOf (offset + length - 1) + 1 - reader.sectorOf offset

/-- How many bytes a read covers: it ends with the partition. -/
def covered (reader : Reader σ) (offset length : Nat) : Nat := min length (reader.size - offset)

def bytesAt (reader : Reader σ) (offset length : Nat) : Act (Cache × World σ) (List UInt8) :=
  let count := reader.covered offset length
  if count = 0 then return []
  else do
    let bytes ← ⟨reader.gather (reader.sectorOf offset) (reader.sectorsTouched offset count) []⟩
    return Bytes.slice bytes (offset % reader.bytesPerSector.toNat) count

/-- Reads and leaves the cursor behind the bytes. A failed read leaves it where it was, but
the sectors that were loaded on the way stay. -/
def readFrom (offset length : Nat) : Act (Reader σ × World σ) (List UInt8) := ⟨fun (reader, world) =>
  if Offset.maximum < length then (.error .valueExceedsMaximum, reader, world)
  else
    match (reader.bytesAt offset length).run (reader.cache, world) with
    | (.ok bytes, cache, world) =>
      (.ok bytes, { reader with cache, cursor := offset + bytes.length }, world)
    | (.error fault, cache, world) => (.error fault, { reader with cache }, world)⟩

def read (length : Nat) : Act (Reader σ × World σ) (List UInt8) := do
  let cursor ← .view (·.1.cursor)
  readFrom cursor length

def readAt (offset : Int) (length : Nat) : Act (Reader σ × World σ) (List UInt8) :=
  if offset < 0 then .fail .outOfBounds else readFrom offset.toNat length

/-- Moves the cursor. It may stand behind the end of the partition, but not before its start
and not beyond the last position. -/
def seek (offset : Int) (origin : Origin) : Act (Reader σ × World σ) Nat := ⟨fun (reader, world) =>
  let base : Nat := match origin with
    | .start => 0
    | .cursor => reader.cursor
    | .finish => reader.size
  let target := base + offset
  if 0 ≤ target ∧ target ≤ Offset.maximum then
    (.ok target.toNat, { reader with cursor := target.toNat }, world)
  else (.error .outOfBounds, reader, world)⟩

end Reader
end PartitionTable
