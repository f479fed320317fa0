import PartitionTable.Chain
import PartitionTable.Reader

/-! A volume: a store together with what was found on it. All that is known about the disk is
in the mount, so a closed volume knows nothing. Opening mounts a store in one step, after
everything on it was read; a failed opening leaves the volume as it was. -/
namespace PartitionTable

inductive Ownership where
  | ownedByVolume
  | borrowedByCaller
  deriving DecidableEq, Repr

structure Options where
  depthLimit : Nat := 256
  cacheCapacity : Nat := 16
  deriving DecidableEq, Repr

structure Mount (σ : Type) where
  store : Store σ
  ownership : Ownership
  /-- The volume opened the store and has to close it. -/
  openedHere : Bool
  /-- The sector size was found out, and not set by the caller. -/
  sizeIsKnown : Bool
  identity : UInt32
  size : Nat
  partitions : List Extent

structure Volume (σ : Type) where
  token : Token
  options : Options := {}
  sectorSize : SectorSize := .smallest
  mount : Option (Mount σ) := none

namespace Volume

def isOpen (volume : Volume σ) : Bool := volume.mount.isSome

def ownership (volume : Volume σ) : Option Ownership := volume.mount.map (·.ownership)

def identity (volume : Volume σ) : UInt32 := (volume.mount.map (·.identity)).getD 0

def size (volume : Volume σ) : Nat := (volume.mount.map (·.size)).getD 0

def partitions (volume : Volume σ) : List Extent := (volume.mount.map (·.partitions)).getD []

def handle (volume : Volume σ) : Handle := ⟨volume.sectorSize.bytes, volume.token⟩

theorem clear_handle (volume : Volume σ) (signals : Signals) : volume.handle.clear signals =
    (⟨SectorSize.smallest.bytes, volume.token⟩, signals.reset volume.token) := rfl

def current : Act (Volume σ × World σ) (Volume σ) := .view (·.1)

def replace (volume : Volume σ) : Act (Volume σ × World σ) Unit := .change fun (_, world) => (volume, world)

/-- Reads all there is to know about an open store and mounts it. -/
def attach (store : Store σ) (ownership : Ownership) (openedHere : Bool) :
    Act (Volume σ × World σ) Unit := do
  let volume ← current
  let size ← (ask store.size).beside
  let walk : Walk σ := ⟨store, volume.token, volume.options.depthLimit⟩
  let chain ← (walk.resolve volume.sectorSize).beside
  (note (.volumeOpened size chain.partitions.length)).beside
  replace { volume with
    sectorSize := chain.sectorSize
    mount := some {
      store, ownership, openedHere, size
      sizeIsKnown := chain.sizeIsKnown
      identity := chain.identity
      partitions := chain.partitions } }

/-- Attaches a store, and closes it again after a failure if it was opened for this. The
failure hides one of the closing. -/
def attachOrRelease (store : Store σ) (ownership : Ownership) (openedHere : Bool) :
    Act (Volume σ × World σ) Unit := do
  match ← (attach store ownership openedHere).attempt with
  | .ok () => return ()
  | .error fault =>
    if openedHere then do
      let _ ← (ask store.release).attempt.beside
      .fail fault
    else .fail fault

/-- Opens a store that the caller keeps. It may be open already, and then stays so. -/
def openStore (store : Store σ) : Act (Volume σ × World σ) Unit := do
  let volume ← current
  if volume.isOpen then .fail .alreadyOpen
  else if ← .view (store.isOpen ·.2.stores) then attachOrRelease store .borrowedByCaller false
  else do
    (ask store.acquire).beside
    attachOrRelease store .borrowedByCaller true

/-- Opens a store that nobody else knows. -/
def openOwned (store : Store σ) : Act (Volume σ × World σ) Unit := do
  let volume ← current
  if volume.isOpen then .fail .alreadyOpen
  else do
    (ask store.acquire).beside
    attachOrRelease store .ownedByVolume true

/-- Closes the store if the volume opened it. -/
def releaseMount (mount : Mount σ) : Act (World σ) Unit :=
  if mount.openedHere then do
    match ← (ask mount.store.release).attempt with
    | .ok () => return ()
    | .error fault => refuse (.storeNotClosed fault) fault
  else return ()

/-- Forgets the disk, lowers the flag and goes back to the first sector size, even when the
store could not be closed. -/
def close : Act (Volume σ × World σ) Unit := do
  let volume ← current
  match volume.mount with
  | none => .fail .notOpen
  | some mount =>
    let released ← (releaseMount mount).attempt.beside
    .change fun (volume, world) =>
      let (handle, signals) := volume.handle.clear world.signals
      ({ token := handle.token, options := volume.options }, { world with signals })
    .ofExcept released

def setBytesPerSector (count : UInt32) : Act (Volume σ × World σ) Unit := do
  let volume ← current
  match volume.mount, SectorSize.ofBytes? count with
  | some mount, _ => .fail (if mount.sizeIsKnown then .alreadySet else .alreadyOpen)
  | none, none => .fail .invalidArgument
  | none, some sectorSize => replace { volume with sectorSize }

def abort : Act (Volume σ × World σ) Unit := .change fun (volume, world) =>
  (volume, { world with signals := world.signals.cancel volume.token })

/-- A volume that goes out of use is closed; nobody is left to hear of a fault. -/
def discard (volume : Volume σ) (world : World σ) : World σ := (close.run (volume, world)).2.2

/-- A reader over one of the partitions, counted from zero. -/
def reader (volume : Volume σ) (index : Nat) : Except Fault (Reader σ) :=
  match volume.mount with
  | none => .error .notOpen
  | some mount =>
    match mount.partitions[index]? with
    | none => .error .invalidArgument
    | some extent => Reader.ofExtent extent mount.store volume.token volume.sectorSize.bytes
        volume.options.cacheCapacity

end Volume
end PartitionTable
