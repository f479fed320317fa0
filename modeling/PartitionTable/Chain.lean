import PartitionTable.Store

/-! The boot records of a disk form a chain. The first one stands at offset 0; a record may
hold one extended entry, which points at the next. The walk reads the records one after the
other and collects the partitions they list, in the order in which it meets them.

The sector size is not known beforehand. While the record behind the first one is read, an
outcome that a wrong size can explain is followed by an attempt with the next larger size;
the size that leads to a record is used from there on. Nothing is returned unless the whole
chain is read. -/
namespace PartitionTable

/-- A boot record that was read: where it stands, and the sector size that led to it. -/
structure Table where
  offset : Int
  sectorSize : SectorSize
  record : BootRecord
  deriving DecidableEq, Repr

/-- A chain read to its end. `linked` holds the tables behind the first one. -/
structure Chain where
  first : Table
  linked : List Table
  partitions : List Extent
  deriving DecidableEq, Repr

namespace Chain

def identity (chain : Chain) : UInt32 := chain.first.record.identity

def sectorSize (chain : Chain) : SectorSize := (chain.linked.getLast?.getD chain.first).sectorSize

/-- A record was found with this sector size, so the size is known and not assumed. -/
def sizeIsKnown (chain : Chain) : Bool := !chain.linked.isEmpty

def tables (chain : Chain) : List Table := chain.first :: chain.linked

end Chain

structure Walk (σ : Type) where
  store : Store σ
  token : Token
  depthLimit : Nat

namespace Walk

def readRecord (walk : Walk σ) (offset : Int) : Act (World σ) BootRecord := do
  if ← isCancelled walk.token then .fail .cancelled
  else BootRecord.readFrom walk.store offset

/-- A record that stays unreadable is a failed read, whatever was wrong with it. -/
def abandonLink (offset : Int) (fault : Fault) : Act (World σ) α :=
  if fault.isWithdrawal then .fail fault
  else refuse (.linkUnreadable offset fault) .readFailed

/-- One attempt at the record behind an extended entry. An offset that cannot be a position
is a fault of its own; any other outcome keeps the offset it was met at. -/
def tryLink (walk : Walk σ) (table : Int) (sector : UInt32) (size : SectorSize) :
    Act (World σ) (Except (Int × Fault) Table) := do
  let offset ← .ofExcept (Offset.ofSector table sector size.bytes)
  note (.readingLink offset)
  match ← (walk.readRecord offset).attempt with
  | .ok record => return .ok ⟨offset, size, record⟩
  | .error fault => return .error (offset, fault)

/-- Reads the record behind an extended entry, with one sector size after another. -/
def readLink (walk : Walk σ) (table : Int) (sector : UInt32) :
    SectorSize → List SectorSize → Act (World σ) Table
  | size, [] => do
    match ← walk.tryLink table sector size with
    | .ok link => return link
    | .error (offset, fault) => abandonLink offset fault
  | size, next :: larger => do
    match ← walk.tryLink table sector size with
    | .ok link => return link
    | .error (offset, fault) =>
      if fault.suggestsLargerSectors then do
        note (.retrying next.bytes)
        walk.readLink table sector next larger
      else abandonLink offset fault

/-- Goes through the used entries of a table in slot order. An extended entry is followed at
once; all the others are partitions. -/
def scan (walk : Walk σ) (table : Table) (larger : List SectorSize) :
    List Entry → Option Table → Act (World σ) (Option Table × List Extent)
  | [], link => return (link, [])
  | entry :: rest, link =>
    if entry.isExtended then
      match link with
      | some _ => refuse (.severalExtended table.offset) .unsupportedLayout
      | none => do
        let link ← walk.readLink table.offset entry.firstSector table.sectorSize larger
        walk.scan table larger rest (some link)
    else do
      note (.entryFound entry)
      let (link, found) ← walk.scan table larger rest link
      return (link, Extent.ofEntry entry table.offset :: found)

/-- A link that leads to the first record or to its own table leads nowhere. -/
def checkLink (table : Table) : Option Table → Act (World σ) Unit
  | none => return ()
  | some next =>
    if next.offset = 0 ∨ next.offset = table.offset then
      refuse (.linkUnsupported next.offset) .outOfBounds
    else return ()

/-- Where a table leads, and the partitions that it lists itself. -/
def visit (walk : Walk σ) (table : Table) (larger : List SectorSize) :
    Act (World σ) (Option Table × List Extent) := do
  let (link, found) ← walk.scan table larger table.record.used none
  checkLink table link
  return (link, found)

/-- The tables behind a table, and the partitions from that table on. The number says how
many tables may stand behind it. -/
def follow (walk : Walk σ) : Nat → Table → List SectorSize → Act (World σ) (List Table × List Extent)
  | 0, table, larger => do
    match ← walk.visit table larger with
    | (none, found) => return ([], found)
    | (some _, _) => refuse (.chainTooLong walk.depthLimit) .outOfBounds
  | allowed + 1, table, larger => do
    match ← walk.visit table larger with
    | (none, found) => return ([], found)
    | (some next, found) => do
      let (linked, more) ← walk.follow allowed next []
      return (next :: linked, found ++ more)

/-- Reads the chain from its first record. Only the first link tries larger sectors. -/
def resolve (walk : Walk σ) (size : SectorSize) : Act (World σ) Chain := do
  let record ← walk.readRecord 0
  note (.masterRecord record.identity)
  let first : Table := ⟨0, size, record⟩
  let (linked, partitions) ← walk.follow walk.depthLimit first size.larger
  let chain : Chain := ⟨first, linked, partitions⟩
  note (.chainResolved partitions.length chain.tables.length chain.sectorSize.bytes)
  return chain

end Walk
end PartitionTable
