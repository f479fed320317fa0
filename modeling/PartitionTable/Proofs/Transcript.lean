import PartitionTable.Proofs.Exchange

/-! Stores that keep a transcript: every call they are put is written down with its answer and
with the signals that came with it. A trace is what a step does to a store of its own; the
transcript goes on from step to step, and stores that share it are told apart by a label. -/
namespace PartitionTable

/-- The state of some stores, and what they were put so far, newest first. -/
abbrev Archive (ι σ : Type) := σ × List (ι × Exchange)

namespace Store

/-- The same store, with every exchange written down under a label. -/
def transcribed (label : ι) (store : Store σ) : Store (Archive ι σ) where
  isOpen s := store.isOpen s.1
  acquire s := (store.acquire s.1).mapState (·, (label, store.exchange .acquire s.1) :: s.2)
  release s := (store.release s.1).mapState (·, (label, store.exchange .release s.1) :: s.2)
  size s := (store.size s.1).mapState (·, (label, store.exchange .size s.1) :: s.2)
  read length offset s :=
    (store.read length offset s.1).mapState (·, (label, store.exchange (.read length offset) s.1) :: s.2)

theorem reply_transcribed (label : ι) (store : Store σ) (call : Call) (s : Archive ι σ) :
    (store.transcribed label).reply call s =
      (store.reply call s.1).mapState (·, (label, store.exchange call s.1) :: s.2) := by
  cases call <;> rfl

theorem exchange_transcribed (label : ι) (store : Store σ) (call : Call) (s : Archive ι σ) :
    (store.transcribed label).exchange call s = store.exchange call s.1 := by
  cases call <;> rfl

end Store

/-- What a store was put on the way to a world is what the transcript gained. -/
theorem Served.transcribed {store : Store σ} {world last : World (Archive ι σ)}
    (served : Served (store.transcribed label) world trace last) :
    last.stores.2 = (trace.map (label, ·)).reverse ++ world.stores.2 := by
  induction served with
  | rest => rfl
  | note _ ih => exact ih
  | call _ ih =>
    rw [ih, World.absorb, Store.reply_transcribed, Store.exchange_transcribed]
    simp [Reply.mapState]

end PartitionTable
