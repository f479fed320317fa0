import PartitionTable.Act
import PartitionTable.Cancellation
import PartitionTable.Notice

/-! What every step of the library can see and change: the stores, the raised flags and the
log. Stores are reached only through replies, so a store can answer as it likes, but beside
its own state it can do nothing except write notices and signal tokens. -/
namespace PartitionTable

/-- The notices are kept newest first. -/
structure World (σ : Type) where
  stores : σ
  signals : Signals
  notices : List Notice

structure Reply (σ α : Type) where
  result : Except Fault α
  state : σ
  notices : List Notice := []
  signals : List Signal := []

namespace Reply

def ok (a : α) (state : σ) : Reply σ α := { result := .ok a, state }

def error (fault : Fault) (state : σ) (notices : List Notice := []) : Reply σ α :=
  { result := .error fault, state, notices }

def mapState (f : σ → τ) (reply : Reply σ α) : Reply τ α := { reply with state := f reply.state }

end Reply

namespace World

def start (stores : σ) : World σ := ⟨stores, .calm, []⟩

def note (world : World σ) (notice : Notice) : World σ :=
  { world with notices := notice :: world.notices }

def absorb (world : World σ) (reply : Reply σ α) : World σ where
  stores := reply.state
  signals := reply.signals.foldl Signals.apply world.signals
  notices := reply.notices.reverse ++ world.notices

end World

def ask (call : σ → Reply σ α) : Act (World σ) α := ⟨fun world =>
  let reply := call world.stores
  (reply.result, world.absorb reply)⟩

def note (notice : Notice) : Act (World σ) Unit := .change (·.note notice)

def refuse (notice : Notice) (fault : Fault) : Act (World σ) α := do
  note notice
  .fail fault

def isCancelled (token : Token) : Act (World σ) Bool := .view (·.signals.raised token)

@[simp] theorem run_ask (call : σ → Reply σ α) (world : World σ) :
    (ask call).run world = ((call world.stores).result, world.absorb (call world.stores)) := rfl

@[simp] theorem run_note (notice : Notice) (world : World σ) :
    (note notice).run world = (.ok (), world.note notice) := rfl

@[simp] theorem run_refuse (notice : Notice) (fault : Fault) (world : World σ) :
    (refuse notice fault : Act (World σ) α).run world = (.error fault, world.note notice) := rfl

@[simp] theorem run_isCancelled (token : Token) (world : World σ) :
    (isCancelled token).run world = (.ok (world.signals.raised token), world) := rfl

end PartitionTable
