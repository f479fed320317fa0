import PartitionTable.SectorSize

/-! Cancellation from outside. A token names a flag; whoever holds the token may raise the
flag, lower it or ask for it, so copies of a token always agree. -/
namespace PartitionTable

structure Token where
  id : Nat
  deriving DecidableEq, Repr

inductive Signal where
  | cancel (token : Token)
  | reset (token : Token)
  deriving DecidableEq, Repr

structure Signals where
  raised : Token → Bool

namespace Signals

def calm : Signals := ⟨fun _ => false⟩

def write (signals : Signals) (token : Token) (flag : Bool) : Signals :=
  ⟨fun other => if other = token then flag else signals.raised other⟩

def cancel (signals : Signals) (token : Token) : Signals := signals.write token true

def reset (signals : Signals) (token : Token) : Signals := signals.write token false

def apply (signals : Signals) : Signal → Signals
  | .cancel token => signals.cancel token
  | .reset token => signals.reset token

@[simp] theorem raised_cancel_same (signals : Signals) (token : Token) :
    (signals.cancel token).raised token = true := by simp [cancel, write]

@[simp] theorem raised_reset_same (signals : Signals) (token : Token) :
    (signals.reset token).raised token = false := by simp [reset, write]

end Signals

/-- What the users of one volume share: its sector size and its token. The size is a bare
number here, since a caller who holds a handle may put any number there. -/
structure Handle where
  bytesPerSector : UInt32
  token : Token
  deriving DecidableEq, Repr

namespace Handle

def new (token : Token) : Handle := ⟨SectorSize.smallest.bytes, token⟩

/-- Back to the first sector size. The flag is lowered for everyone who holds the token. -/
def clear (handle : Handle) (signals : Signals) : Handle × Signals :=
  (new handle.token, signals.reset handle.token)

end Handle
end PartitionTable
