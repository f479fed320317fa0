import PartitionTable.HostError
import PartitionTable.Offset

/-! The part of an operating system that a file store needs. A positioned read may deliver
less than was asked for, and may be interrupted; `fill` repeats it until the request is
served or the file ends. The host bounds the interruptions still to come: no read raises the
bound and an interruption uses it up, so `fill` ends for every host. -/
namespace PartitionTable

/-- Open files are known by number. `readAt` takes a number, a position and the greatest
number of bytes to deliver. -/
structure Host (η : Type) where
  openPath : String → η → Except HostError Nat × η
  size : Nat → η → Except HostError Nat × η
  readAt : Nat → Nat → Nat → η → Except HostError (List UInt8) × η
  interruptions : η → Nat
  interruptions_le : ∀ {file position wanted s answer later},
    readAt file position wanted s = (answer, later) → interruptions later ≤ interruptions s
  interruptions_lt : ∀ {file position wanted s later},
    readAt file position wanted s = (.error .interrupted, later) →
      interruptions later < interruptions s

namespace Host

inductive Gap where
  | beyond
  | refused (position : Nat) (error : HostError)
  deriving DecidableEq, Repr

/-- The bytes from a position on, as many as are wanted and exist. -/
def fill (host : Host η) (file position wanted : Nat) (s : η) : Except Gap (List UInt8) × η :=
  if _served : wanted = 0 then (.ok [], s)
  else if Offset.addressLimit < position then (.error .beyond, s)
  else
    match _answer : host.readAt file position wanted s with
    | (.error .interrupted, later) => fill host file position wanted later
    | (.error error, later) => (.error (.refused position error), later)
    | (.ok [], later) => (.ok [], later)
    | (.ok (first :: more), later) =>
      let bytes := (first :: more).take wanted
      match fill host file (position + bytes.length) (wanted - bytes.length) later with
      | (.ok rest, last) => (.ok (bytes ++ rest), last)
      | (.error gap, last) => (.error gap, last)
  termination_by wanted + host.interruptions s
  decreasing_by
    · exact Nat.add_lt_add_left (host.interruptions_lt _answer) wanted
    · have := host.interruptions_le _answer
      simp
      omega

end Host
end PartitionTable
