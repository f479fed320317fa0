import PartitionTable.Store.Block
import PartitionTable.Store.File
import PartitionTable.Store.Memory

/-! The stores that come with the library, and what they have in common. A read of any of them leaves
cancellation to the token, and it is refused while the store is closed, whatever it asks for. -/
namespace PartitionTable

inductive Store.BuiltIn : {σ : Type} → Store σ → Prop where
  | memory : BuiltIn Memory.store
  | file (host : Host η) : BuiltIn (File.store host)
  | block (device : Device δ) : BuiltIn (Block.store device)

/-- A reply that takes no part in cancellation. -/
structure Reply.Neutral (reply : Reply σ α) : Prop where
  fault : reply.result ≠ .error .cancelled
  signals : reply.signals = []

theorem Reply.Neutral.ok (a : α) (state : σ) : (Reply.ok a state).Neutral := ⟨nofun, rfl⟩

theorem Reply.Neutral.error {fault : Fault} (other : fault ≠ .cancelled) (state : σ) (notices : List Notice) :
    (Reply.error fault state notices : Reply σ α).Neutral :=
  ⟨fun same => other (Except.error.inj same), rfl⟩

theorem Memory.read_neutral (length offset : Nat) (memory : Memory) : (read length offset memory).Neutral := by
  rw [read]
  split
  · exact .ok _ _
  · exact .error (by decide) _ _

theorem File.read_neutral (host : Host η) (length offset : Nat) (state : File × η) :
    (read host length offset state).Neutral := by
  simp only [read]
  split
  · exact .error (by decide) _ _
  · split
    · exact .ok _ _
    · exact .error (by decide) _ _
    · exact .error (by decide) _ _

theorem Block.size_neutral (device : Device δ) (block : Block δ) : (size device block).Neutral := by
  simp only [size]
  split
  · exact .error (by decide) _ _
  · split
    · exact .ok _ _
    · exact .error (by decide) _ _

theorem Block.read_neutral (device : Device δ) (length offset : Nat) (block : Block δ) :
    (read device length offset block).Neutral := by
  have sized := size_neutral device block
  simp only [read]
  split
  · exact .error (by decide) _ _
  split
  · exact .ok _ _
  split
  next fault refused =>
    exact .error (fun same => sized.fault (same ▸ refused)) _ _
  split
  · exact .ok _ _
  simp only [readCovering]
  split
  · exact .error (by decide) _ _
  · exact .ok _ _

theorem Store.BuiltIn.neutral {store : Store σ} (builtIn : store.BuiltIn) (length offset : Nat) (s : σ) :
    (store.read length offset s).Neutral := by
  cases builtIn with
  | memory => exact Memory.read_neutral length offset s
  | file host => exact File.read_neutral host length offset s
  | block device => exact Block.read_neutral device length offset s

/-- A closed store refuses to be read. -/
def Store.RefusesWhenClosed (store : Store σ) : Prop :=
  ∀ s, store.isOpen s = false → ∀ length offset, (store.read length offset s).result = .error .notOpen

theorem Memory.refusesWhenClosed : store.RefusesWhenClosed := by
  intro memory closed length offset
  have shut : memory.isOpen = false := closed
  simp [store, read, shut, Reply.error]

theorem File.refusesWhenClosed (host : Host η) : (store host).RefusesWhenClosed := by
  intro state closed length offset
  have none : state.1.number = none := by simpa [store] using closed
  simp [store, read, none, Reply.error]

theorem Block.refusesWhenClosed (device : Device δ) : (store device).RefusesWhenClosed := by
  intro block closed length offset
  have shut : block.isOpen = false := closed
  simp [store, read, shut, Reply.error]

theorem Store.BuiltIn.refusesWhenClosed {store : Store σ} (builtIn : store.BuiltIn) : store.RefusesWhenClosed := by
  cases builtIn with
  | memory => exact Memory.refusesWhenClosed
  | file host => exact File.refusesWhenClosed host
  | block device => exact Block.refusesWhenClosed device

end PartitionTable
