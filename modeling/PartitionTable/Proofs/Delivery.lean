import PartitionTable.Chain
import PartitionTable.Proofs.Exchange
import PartitionTable.Store.Memory

/-! A store that delivers an image: as long as its state is steady it answers a read with the
bytes that the image has in that range. A read that goes on behind the image it may also refuse, and
what reads in whole sectors cannot tell. Over such a store a step has one result in every world, and
the world stays as it has to be for the next step. -/
namespace PartitionTable

/-- What the reads of a store do in its steady states. Other flags may be raised meanwhile. -/
structure Store.Delivers (store : Store σ) (image : Image) (token : Token) (steady : σ → Prop) : Prop where
  answers : ∀ s, steady s → ∀ length, ∀ offset ≤ Offset.maximum,
    (store.read length offset s).result = .ok (.ofBytes (image.slice offset length)) ∨
    image.size < offset + length ∧ (store.read length offset s).result = .error .readFailed
  stays : ∀ s, steady s → ∀ length, ∀ offset ≤ Offset.maximum, steady (store.read length offset s).state
  quiet : ∀ s, steady s → ∀ length, ∀ offset ≤ Offset.maximum,
    .cancel token ∉ (store.read length offset s).signals

/-- A world in which nothing keeps a read from being answered. -/
structure World.Ready (world : World σ) (token : Token) (steady : σ → Prop) : Prop where
  steady : steady world.stores
  lowered : world.signals.raised token = false

/-- In every world of a kind a step has one result, and leads to another world of the kind. -/
def Act.Yields (kind : ω → Prop) (act : Act ω α) (result : Except Fault α) : Prop :=
  ∀ world, kind world → (act.run world).1 = result ∧ kind (act.run world).2

namespace Reading

theorem count_ofBytes (bytes : List UInt8) : (ofBytes bytes).count = bytes.length := rfl

theorem buffer_ofBytes {bytes : List UInt8} (full : bytes.length = length) :
    (ofBytes bytes).buffer length = bytes :=
  buffer_eq_bytes (ofBytes bytes) full

end Reading

namespace Signals

theorem lowered_foldl {sent : List Signal} (quiet : Signal.cancel token ∉ sent) {signals : Signals}
    (lowered : signals.raised token = false) : (sent.foldl apply signals).raised token = false := by
  induction sent generalizing signals with
  | nil => exact lowered
  | cons signal rest ih =>
    obtain ⟨apart, quiet⟩ := not_or.mp (mt List.mem_cons.mpr quiet)
    refine ih quiet ?_
    cases signal with
    | cancel other =>
      have other : token ≠ other := fun same => apart (same ▸ rfl)
      simpa [apply, cancel, write, other] using lowered
    | reset other =>
      by_cases same : token = other
      · simp [apply, reset, write, same]
      · simpa [apply, reset, write, same] using lowered

end Signals

namespace World.Ready

variable {store : Store σ} {image : Image} {token : Token} {steady : σ → Prop}

theorem note (ready : World.Ready world token steady) : (world.note notice).Ready token steady :=
  ⟨ready.steady, ready.lowered⟩

theorem read (ready : World.Ready world token steady) (delivers : store.Delivers image token steady)
    (length : Nat) (near : offset ≤ Offset.maximum) :
    (world.absorb (store.read length offset world.stores)).Ready token steady :=
  ⟨delivers.stays _ ready.steady length offset near,
    Signals.lowered_foldl (delivers.quiet _ ready.steady length offset near) ready.lowered⟩

end World.Ready

namespace Act.Yields

section General

variable {kind : ω → Prop}

theorem ofExcept (result : Except Fault α) : Act.Yields kind (.ofExcept result) result :=
  fun _ holds => ⟨rfl, holds⟩

theorem pure (a : α) : Act.Yields kind (Pure.pure a) (.ok a) := ofExcept (.ok a)

theorem fail (fault : Fault) : Act.Yields kind (.fail fault : Act ω α) (.error fault) := ofExcept (.error fault)

theorem bind {first : Act ω α} {next : α → Act ω β} (head : Act.Yields kind first (.ok a))
    (tail : Act.Yields kind (next a) result) : Act.Yields kind (first >>= next) result := by
  intro world holds
  obtain ⟨same, middle⟩ := head world holds
  rw [run_bind]
  rcases run : first.run world with ⟨_ | b, later⟩ <;> rw [run] at same middle
  · cases same
  · cases same
    exact tail later middle

theorem attempt {act : Act ω α} (yields : Act.Yields kind act result) :
    Act.Yields kind act.attempt (.ok result) := by
  intro world holds
  obtain ⟨same, later⟩ := yields world holds
  exact ⟨congrArg Except.ok same, later⟩

theorem result_eq {act : Act ω α} (yields : Act.Yields kind act expected) (holds : kind world) :
    (act.run world).1 = expected := (yields world holds).1

end General

section Ready

variable {store : Store σ} {image : Image} {token : Token} {steady : σ → Prop}

theorem note (notice : Notice) : Act.Yields (World.Ready · token steady) (PartitionTable.note notice) (.ok ()) :=
  fun _ ready => ⟨rfl, ready.note⟩

theorem refuse (notice : Notice) (fault : Fault) :
    Act.Yields (World.Ready · token steady) (PartitionTable.refuse notice fault : Act (World σ) α)
      (.error fault) :=
  .bind (.note notice) (.fail fault)

theorem isCancelled : Act.Yields (World.Ready · token steady) (PartitionTable.isCancelled token) (.ok false) :=
  fun _ ready => ⟨congrArg Except.ok ready.lowered, ready⟩

/-- Who fails with a short read does not see whether it was short or refused. -/
theorem bindRead {next : Reading → Act (World σ) α} (delivers : store.Delivers image token steady)
    (near : offset ≤ Offset.maximum)
    (tail : Act.Yields (World.Ready · token steady) (next (.ofBytes (image.slice offset length))) result)
    (short : image.size < offset + length → result = .error .readFailed) :
    Act.Yields (World.Ready · token steady) (ask (store.read length offset) >>= next) result := by
  intro world ready
  have later := ready.read delivers length near
  rcases delivers.answers _ ready.steady length offset near with given | ⟨beyond, refused⟩
  · rw [run_bind_ok (Prod.ext given rfl)]
    exact tail _ later
  · rw [run_bind_error (Prod.ext refused rfl)]
    exact ⟨(short beyond).symm, later⟩

end Ready
end Act.Yields

namespace Image

def recordAt (image : Image) (offset : Nat) : Except Fault BootRecord :=
  if (image.slice offset BootRecord.size).length = BootRecord.size
  then BootRecord.decode (image.slice offset BootRecord.size)
  else .error .readFailed

end Image

theorem Memory.delivers (image : Image) (token : Token) :
    Memory.store.Delivers image token (· = ⟨image, true⟩) := by
  constructor
  · rintro _ rfl length offset _
    exact .inl rfl
  · rintro _ rfl length offset _
    rfl
  · rintro _ rfl length offset _
    simp [Memory.store, Memory.read, Reply.ok]

end PartitionTable
