import PartitionTable.Proofs.Chain.Depth
import PartitionTable.Proofs.Host
import PartitionTable.Proofs.Lifetime
import PartitionTable.Proofs.Opening.Run

/-! The depth limit of a volume. An opening with a limit comes to what it comes to with any larger
one, unless it is refused for the limit. On a disk that does not change there is a limit, told by
its size alone, from which on no opening is refused: the limit might as well not be there. -/
namespace PartitionTable

/-- A store over a disk that stays as it is. It may be open or closed; once an opening of it
succeeds it is open, and then nothing that an opening asks of it fails or cancels. -/
structure Store.Presents (store : Store σ) (image : Image) (token : Token) (known steady : σ → Prop) : Prop where
  delivers : store.Delivers image token steady
  opened : ∀ s, known s → store.isOpen s = true → steady s
  acquired : ∀ s, known s → (store.acquire s).result = .ok () →
    steady (store.acquire s).state ∧ .cancel token ∉ (store.acquire s).signals
  sized : ∀ s, steady s → (store.size s).result = .ok image.size ∧ steady (store.size s).state ∧
    .cancel token ∉ (store.size s).signals

namespace Volume

def limited (volume : Volume σ) (limit : Nat) : Volume σ :=
  { volume with options := { volume.options with depthLimit := limit } }

/-- With a lesser limit an opening comes to what it comes to with a greater one, or the limit
told, and it was refused. -/
def Agree (limit : Nat) (told : Prop) (world : World σ) (lesser greater : Except Fault Unit × Volume σ × World σ) :
    Prop :=
  lesser = (greater.1, greater.2.1.limited limit, greater.2.2) ∨
    told ∧ lesser.1 = .error .outOfBounds ∧ world.Reports (.chainTooLong limit) lesser.2.2

section Agree

variable {store : Store σ} {volume : Volume σ} {world : World σ} {limit larger : Nat} {told : Prop}

def Overflows (volume : Volume σ) (store : Store σ) (limit : Nat) (world : World σ) : Prop :=
  ∃ size, (store.size world.stores).result = .ok size ∧
    (volume.walk store).Overflows limit volume.sectorSize (world.absorb (store.size world.stores))

theorem attach_agree (less : limit ≤ larger) (long : volume.Overflows store limit world → told)
    (ownership : Ownership) (openedHere : Bool) :
    Agree limit told world ((attach store ownership openedHere).run (volume.limited limit, world))
      ((attach store ownership openedHere).run (volume.limited larger, world)) := by
  rcases sized : (store.size world.stores).result with fault | bytes
  · rw [attach_unsized sized, attach_unsized sized]
    exact .inl rfl
  rw [attach_sized sized, attach_sized sized]
  rcases (volume.walk store).resolve_settles limit volume.sectorSize (world.absorb (store.size world.stores)) with
    ⟨outcome, _, settled⟩ | ⟨overflows, outOfBounds, reports⟩
  · have same (other : Nat) (enough : limit ≤ other) :
        (((volume.limited other).walk store).resolve (volume.limited other).sectorSize).run
          (world.absorb (store.size world.stores)) = outcome := settled other enough
    rw [same limit (Nat.le_refl _), same larger less]
    rcases outcome with ⟨_ | _, _⟩
    · exact .inl rfl
    · exact .inl rfl
  · have refused : (((volume.limited limit).walk store).resolve (volume.limited limit).sectorSize).run
        (world.absorb (store.size world.stores)) = (.error .outOfBounds, _) := Prod.ext outOfBounds rfl
    rw [refused]
    exact .inr ⟨long ⟨bytes, sized, overflows⟩, rfl, reports.before (List.suffix_append _ _)⟩

/-- Whether the store is closed again after a failure does not depend on the limit. -/
theorem attachOrRelease_agree (less : limit ≤ larger) (long : volume.Overflows store limit world → told)
    (ownership : Ownership) (openedHere : Bool) :
    Agree limit told world ((attachOrRelease store ownership openedHere).run (volume.limited limit, world))
      ((attachOrRelease store ownership openedHere).run (volume.limited larger, world)) := by
  rcases attach_agree less long ownership openedHere with same | ⟨long, outOfBounds, reports⟩
  · rcases greater : (attach store ownership openedHere).run (volume.limited larger, world) with
      ⟨fault | done, later⟩
    all_goals rw [greater] at same
    · rw [attachOrRelease_failed same, attachOrRelease_failed greater]
      exact .inl rfl
    · rw [attachOrRelease_done same, attachOrRelease_done greater]
      exact .inl rfl
  · rw [attachOrRelease_failed (Prod.ext outOfBounds rfl)]
    refine .inr ⟨long, rfl, reports.after ?_⟩
    cases openedHere with
    | false => exact List.suffix_refl _
    | true => exact List.suffix_append _ _

/-- Where an opening reads the disk: at once if the store is open, or else once it was opened. -/
def Starts (store : Store σ) (world start : World σ) : Prop :=
  (store.isOpen world.stores = true ∧ start = world) ∨
    (store.acquire world.stores).result = .ok () ∧ start = world.absorb (store.acquire world.stores)

theorem acquireAndAttach_agree (less : limit ≤ larger)
    (long : ∀ start, Starts store world start → volume.Overflows store limit start → told) (ownership : Ownership) :
    Agree limit told world ((acquireAndAttach store ownership).run (volume.limited limit, world))
      ((acquireAndAttach store ownership).run (volume.limited larger, world)) := by
  simp only [acquireAndAttach, Act.run_bind, Act.run_beside, run_ask]
  rcases acquired : (store.acquire world.stores).result with fault | done
  · exact .inl rfl
  · rcases attachOrRelease_agree less (long _ (.inr ⟨acquired, rfl⟩)) ownership true with
      same | ⟨long, outOfBounds, reports⟩
    · exact .inl same
    · exact .inr ⟨long, outOfBounds, reports.before (List.suffix_append _ _)⟩

theorem opening_agree (less : limit ≤ larger)
    (long : ∀ start, Starts store world start → volume.Overflows store limit start → told)
    {opening : Act (Volume σ × World σ) Unit} (either : opening = openStore store ∨ opening = openOwned store) :
    Agree limit told world (opening.run (volume.limited limit, world))
      (opening.run (volume.limited larger, world)) := by
  cases isOpen : volume.isOpen with
  | true =>
    have still (other : Nat) : (volume.limited other).isOpen = true := isOpen
    rw [opening_refused either (still limit), opening_refused either (still larger)]
    exact .inl rfl
  | false =>
    have closed (other : Nat) : (volume.limited other).isOpen = false := isOpen
    rcases opening_ways either world with ⟨ready, run⟩ | ⟨ownership, run⟩
    · rw [run _ (closed limit), run _ (closed larger)]
      exact attachOrRelease_agree less (long world (.inl ⟨ready, rfl⟩)) _ _
    · rw [run _ (closed limit), run _ (closed larger)]
      exact acquireAndAttach_agree less long ownership

end Agree

variable {store : Store σ} {image : Image} {token : Token} {known steady : σ → Prop}

theorem Starts.ready {world start : World σ} (starts : Starts store world start)
    (presents : store.Presents image token known steady) (holds : known world.stores)
    (lowered : world.signals.raised token = false) : start.Ready token steady := by
  rcases starts with ⟨isOpen, rfl⟩ | ⟨acquired, rfl⟩
  · exact ⟨presents.opened _ holds isOpen, lowered⟩
  · obtain ⟨held, quiet⟩ := presents.acquired _ holds acquired
    exact ⟨held, Signals.lowered_foldl quiet lowered⟩

theorem not_overflows {volume : Volume σ} {start : World σ} (presents : store.Presents image volume.token known steady)
    (ready : start.Ready volume.token steady) (enough : image.size / 512 ≤ limit) :
    ¬ volume.Overflows store limit start := by
  rintro ⟨bytes, _, overflows⟩
  obtain ⟨_, held, quiet⟩ := presents.sized _ ready.steady
  have asked : (start.absorb (store.size start.stores)).Ready volume.token steady :=
    ⟨held, Signals.lowered_foldl quiet ready.lowered⟩
  exact Walk.not_overflows presents.delivers asked volume.sectorSize enough overflows

/-- An opening with a limit ends as with any larger one, in the same world and with the same
disk put in, unless it is refused for the limit. If the store presents a disk, the number of its
smallest sectors is a limit that refuses nothing, and the walk ends as it would without one. -/
theorem opening_depth (store : Store σ) (opening : Act (Volume σ × World σ) Unit)
    (either : opening = openStore store ∨ opening = openOwned store) (volume : Volume σ) (world : World σ)
    (limit larger : Nat) (less : limit ≤ larger) :
    let lesser := opening.run (volume.limited limit, world)
    let greater := opening.run (volume.limited larger, world)
    (lesser = (greater.1, greater.2.1.limited limit, greater.2.2) ∨
      lesser.1 = .error .outOfBounds ∧ world.Reports (.chainTooLong limit) lesser.2.2) ∧
    ∀ image known steady, store.Presents image volume.token known steady → known world.stores →
      world.signals.raised volume.token = false → image.size / 512 ≤ limit →
      lesser = (greater.1, greater.2.1.limited limit, greater.2.2) ∧
      ∀ start : World σ, start.Ready volume.token steady → ∀ outcome,
        (volume.walk store).Resolves volume.sectorSize start outcome ↔
          (Walk.resolve ⟨store, volume.token, limit⟩ volume.sectorSize).run start = outcome := by
  intro lesser greater
  constructor
  · exact (opening_agree less (fun _ _ _ => trivial) either).imp_right And.right
  intro image known steady presents holds lowered enough
  constructor
  · refine (opening_agree less (fun start starts => ?_) either).resolve_right And.left
    exact not_overflows presents (starts.ready presents holds lowered) enough
  · intro start ready outcome
    rcases (volume.walk store).resolve_settles limit volume.sectorSize start with
      ⟨one, resolves, settled⟩ | ⟨overflows, _⟩
    · have same : (Walk.resolve ⟨store, volume.token, limit⟩ volume.sectorSize).run start = one :=
        settled limit (Nat.le_refl _)
      rw [same]
      exact ⟨fun other => (resolves.unique other).symm, fun equal => equal ▸ resolves⟩
    · exact absurd overflows (Walk.not_overflows presents.delivers ready volume.sectorSize enough)

end Volume

theorem Memory.presents (image : Image) (token : Token) :
    Memory.store.Presents image token (·.image = image) (· = ⟨image, true⟩) where
  delivers := Memory.delivers image token
  opened := by
    rintro ⟨_, _⟩ rfl rfl
    rfl
  acquired := by
    rintro ⟨_, _⟩ rfl _
    exact ⟨rfl, by simp [store, Reply.ok]⟩
  sized := by
    rintro _ rfl
    exact ⟨rfl, rfl, by simp [store, Reply.ok]⟩

namespace File

variable {host : Host η} {path : String} {image : Image} {idle : η → Prop} {held : Nat → η → Prop} {state : File × η}

/-- A file that is closed can be opened, and one that is open cannot. -/
theorem acquire_eq_ok_iff (offers : host.Offers path image idle held) (offered : Offered path idle held state) :
    ((store host).acquire state).result = .ok () ↔ (store host).isOpen state = false := by
  obtain ⟨file, system⟩ := state
  rcases offered with ⟨rfl, isIdle⟩ | holding
  · obtain ⟨number, later, _, opened⟩ := acquire_offers offers isIdle
    simp [store, opened, Reply.ok]
  · obtain ⟨number, known, _⟩ := holding
    have known : file.number = some number := known
    simp [store, acquire, known, Reply.error]

theorem presents (offers : host.Offers path image idle held) (small : image.size ≤ Offset.maximum) (token : Token) :
    (store host).Presents image token (Offered path idle held) (Holding held) where
  delivers := delivers offers small token
  opened := by
    rintro state (⟨fresh, _⟩ | holding) isOpen
    · simp [store, fresh] at isOpen
    · exact holding
  acquired := by
    rintro ⟨_, system⟩ offered acquired
    have closed := (acquire_eq_ok_iff offers offered).mp acquired
    rcases offered with ⟨rfl, isIdle⟩ | holding
    · obtain ⟨number, later, holds, opened⟩ := acquire_offers offers isIdle
      simp only [store, opened]
      exact ⟨⟨number, rfl, holds⟩, List.not_mem_nil⟩
    · cases holding.isOpen.symm.trans closed
  sized := by
    intro state holding
    obtain ⟨later, stays, sized⟩ := size_offers offers holding
    simp only [store, sized]
    exact ⟨rfl, stays, List.not_mem_nil⟩

end File

namespace Volume

/-- A disk of four sectors with one table behind the first: to allow none behind it is too little,
and to allow four is as much as there can be. -/
theorem opening_depth_chained :
    let volume : Volume Memory := { token := ⟨0⟩ }
    let run (limit : Nat) := (openStore Memory.store).run (volume.limited limit, .start chained)
    (run 0).2.1.isOpen = false ∧ (run 4).2.1.isOpen = true ∧
      run 4 = ((run 256).1, (run 256).2.1.limited 4, (run 256).2.2) := by
  dsimp only
  have enough : chained.image.size / 512 ≤ 4 := by decide
  refine ⟨by decide +kernel, by decide +kernel, ?_⟩
  obtain ⟨_, told⟩ := opening_depth Memory.store (openStore Memory.store) (.inl rfl) { token := ⟨0⟩ } (.start chained)
    4 256 (by decide)
  exact (told chained.image _ _ (Memory.presents chained.image ⟨0⟩) rfl rfl enough).1

end Volume
end PartitionTable
