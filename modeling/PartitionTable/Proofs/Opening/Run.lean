import PartitionTable.Proofs.Opening

/-! An opening, run step by step. It asks the store for its size, walks the chain and mounts what
it found; whatever fails on the way is the failure of the opening, and only the store may still
have to be closed. -/
namespace PartitionTable.Volume

def walk (volume : Volume σ) (store : Store σ) : Walk σ := ⟨store, volume.token, volume.options.depthLimit⟩

section Run

variable {store : Store σ} {volume : Volume σ} {world : World σ} {ownership : Ownership} {openedHere : Bool}
  {state later : Volume σ × World σ}

/-- What an opening comes to once the chain was read. -/
def attached (volume : Volume σ) (store : Store σ) (ownership : Ownership) (openedHere : Bool) (bytes : Nat) :
    Except Fault Chain × World σ → Except Fault Unit × Volume σ × World σ
  | (.error fault, world) => (.error fault, volume, world)
  | (.ok chain, world) =>
    (.ok (), { volume with
      sectorSize := chain.sectorSize
      mount := some {
        store, ownership, openedHere
        size := bytes
        sizeIsKnown := chain.sizeIsKnown
        identity := chain.identity
        partitions := chain.partitions } }, world.note (.volumeOpened bytes chain.partitions.length))

theorem attach_unsized (failed : (store.size world.stores).result = .error fault) :
    (attach store ownership openedHere).run (volume, world) =
      (.error fault, volume, world.absorb (store.size world.stores)) := by
  simp [attach, Act.run_bind, current, failed]

theorem attach_sized (sized : (store.size world.stores).result = .ok bytes) :
    (attach store ownership openedHere).run (volume, world) =
      volume.attached store ownership openedHere bytes
        (((volume.walk store).resolve volume.sectorSize).run (world.absorb (store.size world.stores))) := by
  simp only [attach, Act.run_bind, current, Act.run_view, Act.run_beside, run_ask, sized, walk]
  rcases (Walk.resolve ⟨store, volume.token, volume.options.depthLimit⟩ volume.sectorSize).run
    (world.absorb (store.size world.stores)) with ⟨_ | _, _⟩ <;> rfl

theorem attachOrRelease_done (attached : (attach store ownership openedHere).run state = (.ok (), later)) :
    (attachOrRelease store ownership openedHere).run state = (.ok (), later) := by
  simp only [attachOrRelease, Act.run_bind, Act.run_attempt, attached]
  rfl

theorem attachOrRelease_failed (failed : (attach store ownership openedHere).run state = (.error fault, later)) :
    (attachOrRelease store ownership openedHere).run state = (.error fault, later.1,
      if openedHere then later.2.absorb (store.release later.2.stores) else later.2) := by
  simp only [attachOrRelease, Act.run_bind, Act.run_attempt, failed]
  cases openedHere <;> rfl

def acquireAndAttach (store : Store σ) (ownership : Ownership) : Act (Volume σ × World σ) Unit := do
  (ask store.acquire).beside
  attachOrRelease store ownership true

theorem openStore_ready (closed : volume.isOpen = false) (ready : store.isOpen world.stores = true) :
    (openStore store).run (volume, world) = (attachOrRelease store .borrowedByCaller false).run (volume, world) := by
  simp [openStore, Act.run_bind, current, closed, ready]

theorem openStore_unready (closed : volume.isOpen = false) (unready : store.isOpen world.stores = false) :
    (openStore store).run (volume, world) = (acquireAndAttach store .borrowedByCaller).run (volume, world) := by
  simp [openStore, acquireAndAttach, Act.run_bind, current, closed, unready]

theorem openOwned_closed (closed : volume.isOpen = false) :
    (openOwned store).run (volume, world) = (acquireAndAttach store .ownedByVolume).run (volume, world) := by
  simp [openOwned, acquireAndAttach, Act.run_bind, current, closed]

/-- A closed volume opens a store in one of two ways, and the volume does not tell in which. -/
theorem opening_ways {opening : Act (Volume σ × World σ) Unit}
    (either : opening = openStore store ∨ opening = openOwned store) (world : World σ) :
    (store.isOpen world.stores = true ∧ ∀ volume : Volume σ, volume.isOpen = false →
      opening.run (volume, world) = (attachOrRelease store .borrowedByCaller false).run (volume, world)) ∨
    ∃ ownership, ∀ volume : Volume σ, volume.isOpen = false →
      opening.run (volume, world) = (acquireAndAttach store ownership).run (volume, world) := by
  rcases either with rfl | rfl
  · cases ready : store.isOpen world.stores with
    | true => exact .inl ⟨rfl, fun _ closed => openStore_ready closed ready⟩
    | false => exact .inr ⟨_, fun _ closed => openStore_unready closed ready⟩
  · exact .inr ⟨_, fun _ closed => openOwned_closed closed⟩

end Run

/-- What is kept by everything that an opening does: by the calls that it puts beside its reads,
by the walk, and by the mounting of what was found. -/
structure OpeningInvariant (store : Store σ) (kept : Volume σ → World σ → Prop) : Prop where
  asks : ∀ volume world, ∀ call ∈ [Call.acquire, .size, .release], kept volume world →
    kept volume (world.absorb (store.reply call world.stores))
  walks : ∀ volume world, kept volume world →
    kept volume (((volume.walk store).resolve volume.sectorSize).run world).2
  mounts : ∀ volume world ownership openedHere bytes chain, kept volume world →
    kept (volume.attached store ownership openedHere bytes (.ok chain, world)).2.1
      (volume.attached store ownership openedHere bytes (.ok chain, world)).2.2

namespace OpeningInvariant

variable {store : Store σ} {kept : Volume σ → World σ → Prop} {volume : Volume σ} {world : World σ}

theorem attach (invariant : OpeningInvariant store kept) (holds : kept volume world) (ownership : Ownership)
    (openedHere : Bool) :
    kept ((Volume.attach store ownership openedHere).run (volume, world)).2.1
      ((Volume.attach store ownership openedHere).run (volume, world)).2.2 := by
  have asked := invariant.asks volume world .size (by simp) holds
  rcases sized : (store.size world.stores).result with fault | bytes
  · rw [attach_unsized sized]
    exact asked
  rw [attach_sized sized]
  have walked : kept volume
      (((volume.walk store).resolve volume.sectorSize).run (world.absorb (store.size world.stores))).2 :=
    invariant.walks volume _ asked
  rcases ran : ((volume.walk store).resolve volume.sectorSize).run (world.absorb (store.size world.stores)) with
    ⟨fault | chain, later⟩
  all_goals rw [ran] at walked
  · exact walked
  · exact invariant.mounts volume later ownership openedHere bytes chain walked

theorem attachOrRelease (invariant : OpeningInvariant store kept) (holds : kept volume world)
    (ownership : Ownership) (openedHere : Bool) :
    kept ((Volume.attachOrRelease store ownership openedHere).run (volume, world)).2.1
      ((Volume.attachOrRelease store ownership openedHere).run (volume, world)).2.2 := by
  have attached := invariant.attach holds ownership openedHere
  rcases ran : (Volume.attach store ownership openedHere).run (volume, world) with ⟨fault | done, later⟩
  all_goals rw [ran] at attached
  · rw [attachOrRelease_failed ran]
    cases openedHere with
    | false => exact attached
    | true => exact invariant.asks _ _ .release (by simp) attached
  · rw [attachOrRelease_done ran]
    exact attached

theorem acquireAndAttach (invariant : OpeningInvariant store kept) (holds : kept volume world)
    (ownership : Ownership) :
    kept ((Volume.acquireAndAttach store ownership).run (volume, world)).2.1
      ((Volume.acquireAndAttach store ownership).run (volume, world)).2.2 := by
  have asked := invariant.asks volume world .acquire (by simp) holds
  simp only [Volume.acquireAndAttach, Act.run_bind, Act.run_beside, run_ask]
  rcases (store.acquire world.stores).result with fault | done
  · exact asked
  · exact invariant.attachOrRelease asked ownership true

theorem opening (invariant : OpeningInvariant store kept) (holds : kept volume world)
    {opening : Act (Volume σ × World σ) Unit} (either : opening = openStore store ∨ opening = openOwned store) :
    kept (opening.run (volume, world)).2.1 (opening.run (volume, world)).2.2 := by
  cases isOpen : volume.isOpen with
  | true =>
    rw [opening_refused either isOpen]
    exact holds
  | false =>
    rcases opening_ways either world with ⟨_, run⟩ | ⟨ownership, run⟩
    · rw [run volume isOpen]
      exact invariant.attachOrRelease holds _ _
    · rw [run volume isOpen]
      exact invariant.acquireAndAttach holds ownership

end OpeningInvariant
end PartitionTable.Volume
