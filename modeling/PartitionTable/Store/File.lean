import PartitionTable.Host
import PartitionTable.Store

/-! A store over a file of the host. The file is open exactly while its number is held, and
closing it cannot fail. Every refusal of the host is reported before it becomes a fault. -/
namespace PartitionTable

structure File where
  path : String
  number : Option Nat := none
  deriving DecidableEq, Repr

namespace File

def acquire (host : Host η) (state : File × η) : Reply (File × η) Unit :=
  let (file, system) := state
  match file.number with
  | some _ => .error .alreadyOpen state
  | none =>
    match host.openPath file.path system with
    | (.ok number, later) => .ok () ({ file with number := some number }, later)
    | (.error error, later) => .error .readFailed (file, later) [.fileNotOpened file.path error]

def size (host : Host η) (state : File × η) : Reply (File × η) Nat :=
  let (file, system) := state
  match file.number with
  | none => .error .notOpen state
  | some number =>
    match host.size number system with
    | (.ok size, later) => .ok size (file, later)
    | (.error error, later) => .error .readFailed (file, later) [.fileNotMeasured file.path error]

def read (host : Host η) (length offset : Nat) (state : File × η) : Reply (File × η) Reading :=
  let (file, system) := state
  match file.number with
  | none => .error .notOpen state
  | some number =>
    match host.fill number offset length system with
    | (.ok bytes, later) => .ok (.ofBytes bytes) (file, later)
    | (.error .beyond, later) => .error .outOfBounds (file, later)
    | (.error (.refused position error), later) =>
      .error .readFailed (file, later) [.fileNotRead file.path position error]

def store (host : Host η) : Store (File × η) where
  isOpen state := state.1.number.isSome
  acquire := acquire host
  release state := .ok () ({ state.1 with number := none }, state.2)
  size := size host
  read := read host

end File
end PartitionTable
