import PartitionTable.Store

/-! A quick look at the first sector: does the store start with a partition table? The
trailer alone does not tell, since the boot sectors of two families of file systems end in
it too. Those carry the name of the file system in the bytes before the table. -/
namespace PartitionTable.Probe

/-- The names that betray a file system: NTFS and FAT. -/
def fileSystemNames : List (List UInt8) := [[0x4e, 0x54, 0x46, 0x53], [0x46, 0x41, 0x54]]

/-- A name counts if it ends before the partition table starts. -/
def namesFileSystem (sector : List UInt8) : Bool :=
  fileSystemNames.any (Bytes.contains (sector.take BootRecord.tableOffset))

def firstSector (store : Store σ) : Act (World σ) Bool := do
  let reading ← ask (store.read BootRecord.size 0)
  if reading.count ≠ BootRecord.size then refuse (.shortProbe reading.count) .readFailed
  else
    let sector := reading.buffer BootRecord.size
    if !BootRecord.hasSignature sector then return false
    else if namesFileSystem sector then do
      note .fileSystemSector
      return false
    else return true

/-- A store that is closed is opened for the look and closed again. A fault of the look comes
before a fault of the closing. -/
def run (store : Store σ) : Act (World σ) Bool := do
  if ← .view (store.isOpen ·.stores) then firstSector store
  else do
    ask store.acquire
    let found ← (firstSector store).attempt
    let closed ← (ask store.release).attempt
    let found ← .ofExcept found
    .ofExcept closed
    return found

end PartitionTable.Probe
