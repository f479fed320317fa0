import PartitionTable.Store

/-! What a step does to the world, told as the calls that it puts to a store. A trace lists
those calls in the order in which they are put, each with its answer; between them nothing
happens but notices. A property of worlds is then proved once for each kind of call, and not
once for each step that puts calls. -/
namespace PartitionTable

inductive Answer where
  | done
  | size (bytes : Nat)
  | reading (reading : Reading)
  deriving DecidableEq, Repr

structure Exchange where
  call : Call
  answer : Except Fault Answer
  signals : List Signal

namespace Reply

def map (f : α → β) (reply : Reply σ α) : Reply σ β := { reply with result := reply.result.map f }

end Reply

namespace Store

def reply (store : Store σ) : Call → σ → Reply σ Answer
  | .acquire, s => (store.acquire s).map fun _ => .done
  | .release, s => (store.release s).map fun _ => .done
  | .size, s => (store.size s).map .size
  | .read length offset, s => (store.read length offset s).map .reading

def exchange (store : Store σ) (call : Call) (s : σ) : Exchange where
  call
  answer := (store.reply call s).result
  signals := (store.reply call s).signals

end Store

/-- From the first world to the last one, a store was put exactly the calls of the trace. -/
inductive Served (store : Store σ) : World σ → List Exchange → World σ → Prop where
  | rest : Served store world [] world
  | note : Served store (world.note notice) trace last → Served store world trace last
  | call : Served store (world.absorb (store.reply call world.stores)) trace last →
      Served store world (store.exchange call world.stores :: trace) last

namespace Served

theorem append (first : Served store world before middle) (second : Served store middle after last) :
    Served store world (before ++ after) last := by
  induction first with
  | rest => exact second
  | note _ ih => exact .note (ih second)
  | call _ ih => exact .call (ih second)

theorem noted (served : Served store world trace last) : Served store world trace (last.note notice) := by
  simpa using served.append (.note .rest)

/-- Flags change only by what the store signals, in the order in which it does. -/
theorem signals (served : Served store world trace last) :
    last.signals = (trace.flatMap (·.signals)).foldl Signals.apply world.signals := by
  induction served with
  | rest => rfl
  | note _ ih => exact ih
  | call _ ih =>
    rw [List.flatMap_cons, List.foldl_append]
    exact ih

end Served

namespace Act

/-- In every world, a step puts some calls to the store and ends with some outcome. -/
def Traced (store : Store σ) (act : Act (World σ) α) (post : List Exchange → Except Fault α → Prop) :
    Prop :=
  ∀ world, ∃ trace, Served store world trace (act.run world).2 ∧ post trace (act.run world).1

namespace Traced

variable {store : Store σ} {act : Act (World σ) α} {post : List Exchange → Except Fault α → Prop}

theorem silent (unchanged : ∀ world, (act.run world).2 = world)
    (holds : ∀ world, post [] (act.run world).1) : Traced store act post := by
  intro world
  refine ⟨[], ?_, holds world⟩
  rw [unchanged]
  exact .rest

theorem pure {a : α} (holds : post [] (.ok a)) : Traced store (Pure.pure a : Act (World σ) α) post :=
  silent (fun _ => rfl) (fun _ => holds)

theorem note {notice : Notice} {post : List Exchange → Except Fault Unit → Prop}
    (holds : post [] (.ok ())) :
    Traced store (PartitionTable.note notice) post := by
  intro world
  exact ⟨[], .note .rest, holds⟩

theorem refuse {notice : Notice} {fault : Fault} (holds : post [] (.error fault)) :
    Traced store (PartitionTable.refuse notice fault : Act (World σ) α) post := by
  intro world
  exact ⟨[], .note .rest, holds⟩

theorem ask {request : σ → Reply σ α} {answer : α → Answer} {call : Call}
    (same : ∀ s, store.reply call s = (request s).map answer)
    (holds : ∀ s, post [store.exchange call s] (request s).result) :
    Traced store (PartitionTable.ask request) post := by
  intro world
  refine ⟨[store.exchange call world.stores], ?_, holds world.stores⟩
  have step : Served store world [store.exchange call world.stores]
      (world.absorb (store.reply call world.stores)) := .call .rest
  rw [same] at step
  exact step

/-- A sequence puts the calls of its first part and then those of the second, if it comes to
that. -/
theorem bind {first : Act (World σ) α} {next : α → Act (World σ) β}
    {late : α → List Exchange → Except Fault β → Prop} {post : List Exchange → Except Fault β → Prop}
    (head : Traced store first early) (tail : ∀ a, Traced store (next a) (late a))
    (failed : ∀ trace fault, early trace (.error fault) → post trace (.error fault))
    (joined : ∀ a before after result, early before (.ok a) → late a after result →
      post (before ++ after) result) :
    Traced store (first >>= next) post := by
  intro world
  obtain ⟨before, served, holds⟩ := head world
  rw [run_bind]
  rcases run : first.run world with ⟨_ | a, middle⟩ <;> rw [run] at served holds
  · exact ⟨before, served, failed _ _ holds⟩
  · obtain ⟨after, more, ends⟩ := tail a middle
    exact ⟨before ++ after, served.append more, joined _ _ _ _ holds ends⟩

theorem afterNote {notice : Notice} (traced : Traced store act post) :
    Traced store (PartitionTable.note notice >>= fun _ => act) post := by
  intro world
  obtain ⟨trace, served, holds⟩ := traced (world.note notice)
  exact ⟨trace, .note served, holds⟩

theorem returning {form : α → β} {post : List Exchange → Except Fault β → Prop} (traced : Traced store act early)
    (holds : ∀ trace result, early trace result → post trace (result.map form)) :
    Traced store (act >>= fun a => Pure.pure (form a)) post := by
  intro world
  obtain ⟨trace, served, met⟩ := traced world
  rw [run_bind]
  rcases run : act.run world with ⟨_ | a, later⟩ <;> rw [run] at served met
  · exact ⟨trace, served, holds _ _ met⟩
  · exact ⟨trace, served, holds _ _ met⟩

end Traced
end Act
end PartitionTable
