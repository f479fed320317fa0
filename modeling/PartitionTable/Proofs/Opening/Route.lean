import PartitionTable.Proofs.Chain.Resolution
import PartitionTable.Proofs.Opening.Run

/-! An opening over a store with the records of an image. It succeeds exactly along a route of the
image, and then the volume is told by that route; how the store came to its records does not matter. -/
namespace PartitionTable.Volume

variable {store : Store σ} {volume : Volume σ} {world : World σ} {image : Image} {steady : σ → Prop} {opened : σ}

/-- What the routes of an image tell of a chain. -/
def Along (image : Image) (start : SectorSize) (limit : Nat) (chain : Chain) : Prop :=
  ∀ offsets bytes, image.Route start limit offsets bytes →
    chain.partitions = offsets.flatMap image.partitions ∧ chain.sectorSize.bytes.toNat = bytes ∧
      chain.identity.toNat = image.word 440

theorem openOwned_route (records : store.Records image volume.token steady) (small : image.size ≤ Offset.maximum)
    (sized : ∀ s, steady s → ∃ later, steady later ∧ store.size s = .ok image.size later)
    (closed : volume.isOpen = false) (acquired : store.acquire world.stores = .ok () opened) (held : steady opened)
    (lowered : world.signals.raised volume.token = false) :
    ((∃ offsets bytes, image.Route volume.sectorSize volume.options.depthLimit offsets bytes) ∧
      ∃ chain later, Along image volume.sectorSize volume.options.depthLimit chain ∧
        (openOwned store).run (volume, world) =
          volume.attached store .ownedByVolume true image.size (.ok chain, later)) ∨
    (¬ ∃ offsets bytes, image.Route volume.sectorSize volume.options.depthLimit offsets bytes) ∧
      ∃ fault later, (openOwned store).run (volume, world) = (.error fault, volume, later) := by
  obtain ⟨asked, stays, size⟩ := sized opened held
  let start := (world.absorb (Reply.ok () opened)).absorb (store.size opened)
  have ready : start.Ready volume.token steady := by
    constructor
    · show steady (store.size opened).state
      rw [size]
      exact stays
    · simpa [start, size, World.absorb, Reply.ok] using lowered
  have measured : (store.size (world.absorb (Reply.ok () opened)).stores).result = .ok image.size :=
    congrArg Reply.result size
  have attaches : (attach store .ownedByVolume true).run (volume, world.absorb (Reply.ok () opened)) =
      volume.attached store .ownedByVolume true image.size
        (((volume.walk store).resolve volume.sectorSize).run start) := attach_sized measured
  have routed : store.Records image (volume.walk store).token steady := records
  have succeeds : (∃ chain, (((volume.walk store).resolve volume.sectorSize).run start).1 = .ok chain) ↔
      ∃ offsets bytes, image.Route volume.sectorSize volume.options.depthLimit offsets bytes :=
    Walk.resolve_succeeds_iff routed small ready
  rw [openOwned_closed closed]
  simp only [acquireAndAttach, Act.run_bind, Act.run_beside, run_ask, acquired]
  rcases run : ((volume.walk store).resolve volume.sectorSize).run start with ⟨fault | chain, later⟩
  all_goals rw [run] at attaches succeeds
  · refine .inr ⟨fun route => ?_, _, _, attachOrRelease_failed attaches⟩
    obtain ⟨_, ok⟩ := succeeds.mpr route
    cases ok
  · refine .inl ⟨succeeds.mp ⟨chain, rfl⟩, chain, later, fun offsets bytes route => ?_, attachOrRelease_done attaches⟩
    obtain ⟨partitions, size, _, identity⟩ := Walk.resolve_along_route routed small ready route (congrArg Prod.fst run)
    exact ⟨partitions, size, identity⟩

end PartitionTable.Volume
