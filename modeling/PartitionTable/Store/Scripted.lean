import PartitionTable.Image
import PartitionTable.Store

/-! A store that misbehaves on purpose. Reads are numbered from zero over the whole life of
the store, and its script says what happens at which of them. Used to put the callers of a
store through failures that a sound store never shows. -/
namespace PartitionTable

inductive Mishap where
  | fail (fault : Fault)
  | cancel (token : Token)
  | report (count : Nat)
  deriving DecidableEq, Repr

structure Scripted where
  image : Image
  isOpen : Bool := false
  acquireFault : Option Fault := none
  releaseFault : Option Fault := none
  sizeFault : Option Fault := none
  script : List (Nat × Mishap) := []
  reads : Nat := 0

namespace Scripted

def answer (fault : Option Fault) (a : α) (state : Scripted) : Reply Scripted α :=
  match fault with
  | some fault => .error fault state
  | none => .ok a state

/-- Mishaps happen in the order of the script, and a failure ends the read. -/
def play (reply : Reply Scripted Reading) : List Mishap → Reply Scripted Reading
  | [] => reply
  | .fail fault :: _ => { reply with result := .error fault }
  | .cancel token :: rest => play { reply with signals := reply.signals ++ [.cancel token] } rest
  | .report count :: rest =>
    play { reply with result := reply.result.map fun reading => { reading with count } } rest

def read (length offset : Nat) (state : Scripted) : Reply Scripted Reading :=
  if state.isOpen then
    let mishaps := state.script.filterMap fun (read, mishap) =>
      if read = state.reads then some mishap else none
    play (.ok (.ofBytes (state.image.slice offset length)) { state with reads := state.reads + 1 }) mishaps
  else .error .notOpen state

def store : Store Scripted where
  isOpen := Scripted.isOpen
  acquire state := answer state.acquireFault () { state with isOpen := state.isOpen || state.acquireFault.isNone }
  release state := answer state.releaseFault () { state with isOpen := false }
  size state := answer state.sizeFault state.image.size state
  read := read

end Scripted
end PartitionTable
