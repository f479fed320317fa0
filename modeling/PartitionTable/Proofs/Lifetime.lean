import PartitionTable.Proofs.Chain.Layout
import PartitionTable.Proofs.Chain.Order
import PartitionTable.Proofs.Opening

/-! A volume through everything that can happen to it: openings that succeed and fail, closings,
sizes set from outside, signals, readers, and stores that change while nobody looks. What one
operation can do to a volume is said once; from it follow what holds of every volume that can be
reached, and that an open volume stays as it was mounted until it is closed. -/
namespace PartitionTable

/-- The partitions of a mount, as far as it does not depend on the disk. -/
structure Mount.Listed (mount : Mount σ) : Prop where
  kinds : ∀ extent ∈ mount.partitions, extent.kind.code ∉ [0x00, 0x05, 0x0f]
  places : ∀ extent ∈ mount.partitions, 0 ≤ extent.table ∧ (512 : Int) ∣ extent.table
  ordered : (mount.partitions.map (·.table)).Pairwise (· ≤ ·)
  first : mount.sizeIsKnown = false → ∀ extent ∈ mount.partitions, extent.table = 0

namespace Chain.Trailed

variable {chain : Chain}

theorem mem_partitions (trailed : chain.Trailed start limit trace) (member : extent ∈ chain.partitions) :
    ∃ table ∈ chain.tables, extent.table = table.offset ∧ extent.kind.code ∉ [0x00, 0x05, 0x0f] := by
  rw [trailed.partitions] at member
  obtain ⟨table, visited, own⟩ := List.mem_flatMap.mp member
  obtain ⟨entry, _, used, plain, rfl⟩ := Table.mem_partitions own
  refine ⟨table, visited, rfl, ?_⟩
  have kind := Kind.isPartition_used entry.kind
  rw [Entry.isEmpty] at used
  rw [Entry.isExtended] at plain
  rw [used, plain] at kind
  exact of_decide_eq_true kind.symm

theorem nonnegative (trailed : chain.Trailed start limit trace) : ∀ table ∈ chain.tables, 0 ≤ table.offset := by
  have ascending := trailed.ascending.1
  rw [Chain.tables, List.map_cons, List.pairwise_cons, trailed.origin] at ascending
  intro table member
  rcases List.mem_cons.mp member with rfl | member
  · exact Int.le_of_eq trailed.origin.symm
  · exact Int.le_of_lt (ascending.1 _ (List.mem_map_of_mem member))

/-- The partitions of one table have one place, and the tables stand one behind the other. -/
theorem ordered (trailed : chain.Trailed start limit trace) :
    (chain.partitions.map (·.table)).Pairwise (· ≤ ·) := by
  have own (table : Table) : ∀ extent ∈ table.partitions, extent.table = table.offset := by
    intro extent member
    obtain ⟨entry, _, _, _, rfl⟩ := Table.mem_partitions member
    rfl
  rw [trailed.partitions, List.pairwise_map, List.pairwise_flatMap]
  constructor
  · intro table _
    refine List.pairwise_of_forall_mem_list fun first one second other => ?_
    exact Int.le_of_eq ((own table first one).trans (own table second other).symm)
  · refine (List.pairwise_map.mp trailed.ascending.1).imp ?_
    intro table next before first one second other
    rw [own table first one, own next second other]
    exact Int.le_of_lt before

end Chain.Trailed

namespace Volume

/-- What can happen to a volume, and around it. Stores change by themselves, and so do flags. -/
inductive Operation (σ : Type) where
  | openOwned (store : Store σ)
  | openStore (store : Store σ)
  | close
  | setBytesPerSector (count : UInt32)
  | abort
  | reader (index : Nat)
  | signal (signal : Signal)
  | outside (change : σ → σ)

def perform : Operation σ → Act (Volume σ × World σ) Unit
  | .openOwned store => openOwned store
  | .openStore store => openStore store
  | .close => close
  | .setBytesPerSector count => setBytesPerSector count
  | .abort => abort
  | .reader index => do
    let volume ← current
    let _ ← .ofExcept (volume.reader index)
    return ()
  | .signal signal => .change fun (volume, world) =>
    (volume, { world with signals := world.signals.apply signal })
  | .outside change => .change fun (volume, world) => (volume, { world with stores := change world.stores })

def after : List (Operation σ) → Volume σ × World σ → Volume σ × World σ
  | [], state => state
  | operation :: rest, state => after rest ((perform operation).run state).2

/-- A disk was put in: nothing was known of one before, and its partitions are listed in order. -/
def Mounted (volume later : Volume σ) : Prop :=
  volume.mount = none ∧ ∃ (size : SectorSize) (found : Mount σ), found.Listed ∧
    later = { volume with sectorSize := size, mount := some found }

/-- What one operation can do to a volume: what it is for, or nothing. -/
inductive Step (volume : Volume σ) : Operation σ → Volume σ → Prop where
  | same : Step volume operation volume
  | mounted : operation ∈ [.openStore store, .openOwned store] → Mounted volume later → Step volume operation later
  | sized {size : SectorSize} : SectorSize.ofBytes? count = some size → volume.mount = none →
    Step volume (.setBytesPerSector count) { token := volume.token, options := volume.options, sectorSize := size }
  | closed : Step volume .close { token := volume.token, options := volume.options }

section Opening

variable {store : Store σ} {volume : Volume σ} {world : World σ} {later : Volume σ × World σ}

theorem run_beside_eq_ok {act : Act ω α} {first : ρ} {second : ω} {last : ρ × ω}
    (run : act.beside.run (first, second) = (.ok a, last)) :
    ∃ middle, act.run second = (.ok a, middle) ∧ last = (first, middle) := by
  rw [Act.run_beside] at run
  obtain ⟨ok, rfl⟩ := Prod.mk.inj run
  exact ⟨_, Prod.ext ok rfl, rfl⟩

theorem listed_of_trailed {found : Mount σ} {chain : Chain} (trailed : chain.Trailed start limit trace)
    (partitions : found.partitions = chain.partitions) (known : found.sizeIsKnown = chain.sizeIsKnown) :
    found.Listed where
  kinds extent member := by
    obtain ⟨_, _, _, kind⟩ := trailed.mem_partitions (partitions ▸ member)
    exact kind
  places extent member := by
    obtain ⟨table, visited, place, _⟩ := trailed.mem_partitions (partitions ▸ member)
    rw [place]
    exact ⟨trailed.nonnegative table visited, trailed.ascending.2 table visited⟩
  ordered := partitions ▸ trailed.ordered
  first unknown extent member := by
    obtain ⟨table, visited, place, _⟩ := trailed.mem_partitions (partitions ▸ member)
    have alone : chain.linked = [] := by simpa [known, Chain.sizeIsKnown] using unknown
    rw [Chain.tables, alone, List.mem_singleton] at visited
    rw [place, visited, trailed.origin]

theorem attach_ok {ownership : Ownership} {openedHere : Bool}
    (attached : (attach store ownership openedHere).run (volume, world) = (.ok (), later)) :
    ∃ (size : SectorSize) (found : Mount σ), found.Listed ∧
      later.1 = { volume with sectorSize := size, mount := some found } := by
  obtain ⟨_, _, ⟨⟩, attached⟩ := Act.run_bind_eq_ok.mp attached
  obtain ⟨size, _, sized, attached⟩ := Act.run_bind_eq_ok.mp attached
  obtain ⟨middle, _, rfl⟩ := run_beside_eq_ok sized
  let walk : Walk σ := ⟨store, volume.token, volume.options.depthLimit⟩
  obtain ⟨chain, _, resolved, attached⟩ := Act.run_bind_eq_ok.mp attached
  obtain ⟨last, found, rfl⟩ := run_beside_eq_ok resolved
  obtain ⟨trace, _, _, trailed⟩ := walk.resolve_traced volume.sectorSize middle
  cases attached
  exact ⟨_, _, listed_of_trailed (trailed chain (congrArg Prod.fst found)) rfl rfl, rfl⟩

theorem attachOrRelease_ok {ownership : Ownership} {openedHere : Bool} {state : Volume σ × World σ}
    (attached : (attachOrRelease store ownership openedHere).run state = (.ok (), later)) :
    (attach store ownership openedHere).run state = (.ok (), later) := by
  simp only [attachOrRelease, Act.run_bind, Act.run_attempt] at attached
  rcases run : (attach store ownership openedHere).run state with ⟨fault | done, middle⟩
  all_goals rw [run] at attached
  · cases openedHere <;> cases attached
  · exact attached

theorem not_isOpen (closed : ¬ volume.isOpen = true) : volume.mount = none := by
  simpa [isOpen] using closed

theorem openStore_ok (opened : (openStore store).run (volume, world) = (.ok (), later)) : Mounted volume later.1 := by
  obtain ⟨_, _, ⟨⟩, opened⟩ := Act.run_bind_eq_ok.mp opened
  by_cases isOpen : volume.isOpen = true
  · rw [if_pos isOpen] at opened
    cases opened
  rw [if_neg isOpen] at opened
  refine ⟨not_isOpen isOpen, ?_⟩
  obtain ⟨ready, _, ⟨⟩, opened⟩ := Act.run_bind_eq_ok.mp opened
  by_cases ready : store.isOpen world.stores = true
  · rw [if_pos ready] at opened
    exact attach_ok (attachOrRelease_ok opened)
  · rw [if_neg ready] at opened
    obtain ⟨_, _, acquired, opened⟩ := Act.run_bind_eq_ok.mp opened
    obtain ⟨_, _, rfl⟩ := run_beside_eq_ok acquired
    exact attach_ok (attachOrRelease_ok opened)

theorem openOwned_ok (opened : (openOwned store).run (volume, world) = (.ok (), later)) : Mounted volume later.1 := by
  obtain ⟨_, _, ⟨⟩, opened⟩ := Act.run_bind_eq_ok.mp opened
  by_cases isOpen : volume.isOpen = true
  · rw [if_pos isOpen] at opened
    cases opened
  rw [if_neg isOpen] at opened
  refine ⟨not_isOpen isOpen, ?_⟩
  obtain ⟨_, _, acquired, opened⟩ := Act.run_bind_eq_ok.mp opened
  obtain ⟨_, _, rfl⟩ := run_beside_eq_ok acquired
  exact attach_ok (attachOrRelease_ok opened)

theorem opening_ok {opening : Act (Volume σ × World σ) Unit} (either : opening ∈ [openStore store, openOwned store])
    (opened : opening.run (volume, world) = (.ok (), later)) : later.1.isOpen = true := by
  have mounted : Mounted volume later.1 := by
    rcases List.mem_pair.mp either with rfl | rfl
    · exact openStore_ok opened
    · exact openOwned_ok opened
  obtain ⟨_, _, _, _, same⟩ := mounted
  rw [same]
  rfl

/-- An opening that fails leaves the volume as it was, and one that succeeds mounts a disk. -/
theorem opening_step {opening : Act (Volume σ × World σ) Unit} {operation : Operation σ} (clean : Clean store opening)
    (opens : operation ∈ [.openStore store, .openOwned store])
    (mounts : ∀ later, opening.run (volume, world) = (.ok (), later) → Mounted volume later.1) :
    Step volume operation (opening.run (volume, world)).2.1 := by
  obtain ⟨_, _, unchanged⟩ := clean volume world
  rcases run : opening.run (volume, world) with ⟨fault | done, later⟩
  · rw [run] at unchanged
    rw [unchanged fault rfl]
    exact .same
  · exact .mounted opens (mounts later run)

end Opening

theorem close_run {volume : Volume σ} {mount : Mount σ} (mounted : volume.mount = some mount) (world : World σ) :
    (close.run (volume, world)).1 =
        (if mount.openedHere then (mount.store.release world.stores).result else .ok ()) ∧
    (close.run (volume, world)).2.1 = { token := volume.token, options := volume.options } ∧
    (close.run (volume, world)).2.2.signals.raised volume.token = false := by
  simp only [close, Act.run_bind, current, Act.run_view, mounted, Act.run_beside, Act.run_attempt,
    Act.run_change, clear_handle, Act.run_ofExcept, Signals.raised_reset_same, and_true]
  cases openedHere : mount.openedHere with
  | false => simp [releaseMount, openedHere]
  | true =>
    simp only [releaseMount, openedHere, if_true, Act.run_bind, Act.run_attempt, run_ask]
    cases (mount.store.release world.stores).result <;> rfl

theorem close_closed {volume : Volume σ} (closed : volume.isOpen = false) (world : World σ) :
    close.run (volume, world) = (.error .notOpen, volume, world) := by
  have empty : volume.mount = none := by simpa [isOpen] using closed
  simp [close, Act.run_bind, current, empty]

theorem close_step (volume : Volume σ) (world : World σ) : Step volume .close (close.run (volume, world)).2.1 := by
  cases mounted : volume.mount with
  | none =>
    rw [close_closed (by simp [isOpen, mounted])]
    exact .same
  | some mount =>
    rw [(close_run mounted world).2.1]
    exact .closed

theorem setBytesPerSector_step (count : UInt32) (volume : Volume σ) (world : World σ) :
    Step volume (.setBytesPerSector count) ((setBytesPerSector count).run (volume, world)).2.1 := by
  simp only [setBytesPerSector, Act.run_bind, current, Act.run_view]
  cases mounted : volume.mount with
  | some mount => exact .same
  | none =>
    cases supported : SectorSize.ofBytes? count with
    | none => exact .same
    | some size => exact .sized supported mounted

theorem reader_step (index : Nat) (volume : Volume σ) (world : World σ) :
    ((perform (.reader index)).run (volume, world)).2 = (volume, world) := by
  simp only [perform, Act.run_bind, current, Act.run_view, Act.run_ofExcept]
  cases volume.reader index <;> rfl

theorem perform_step (operation : Operation σ) (volume : Volume σ) (world : World σ) :
    Step volume operation ((perform operation).run (volume, world)).2.1 := by
  cases operation with
  | openOwned store => exact opening_step (openOwned_clean store) (by simp) fun _ => openOwned_ok
  | openStore store => exact opening_step (openStore_clean store) (by simp) fun _ => openStore_ok
  | close => exact close_step volume world
  | setBytesPerSector count => exact setBytesPerSector_step count volume world
  | reader index =>
    rw [reader_step]
    exact .same
  | abort => exact .same
  | signal => exact .same
  | outside => exact .same

variable {token : Token} {options : Options}

/-- The invariant of all operations. The token and the options are those of the new volume. -/
structure Kept (token : Token) (options : Options) (volume : Volume σ) : Prop where
  token : volume.token = token
  options : volume.options = options
  listed : ∀ mount, volume.mount = some mount → mount.Listed

theorem Step.kept {volume later : Volume σ} (step : Step volume operation later)
    (kept : volume.Kept token options) : later.Kept token options := by
  cases step with
  | same => exact kept
  | mounted _ mounted =>
    obtain ⟨_, size, found, listed, rfl⟩ := mounted
    exact ⟨kept.token, kept.options, fun mount same => Option.some.inj same ▸ listed⟩
  | sized => exact ⟨kept.token, kept.options, nofun⟩
  | closed => exact ⟨kept.token, kept.options, nofun⟩

/-- Only a closing changes an open volume. -/
theorem Step.unchanged {volume later : Volume σ} (step : Step volume operation later)
    (isOpen : volume.isOpen = true) (other : operation ≠ .close) : later = volume := by
  obtain ⟨mount, mounted⟩ := Option.isSome_iff_exists.mp isOpen
  cases step with
  | same => rfl
  | mounted _ fresh => cases fresh.1.symm.trans mounted
  | sized _ closed => cases closed.symm.trans mounted
  | closed => exact absurd rfl other

theorem after_kept (operations : List (Operation σ)) (state : Volume σ × World σ)
    (kept : state.1.Kept token options) : (after operations state).1.Kept token options := by
  induction operations generalizing state with
  | nil => exact kept
  | cons operation rest ih => exact ih _ ((perform_step operation state.1 state.2).kept kept)

theorem after_unchanged (operations : List (Operation σ)) (state : Volume σ × World σ)
    (isOpen : state.1.isOpen = true) (others : ∀ operation ∈ operations, operation ≠ .close) :
    (after operations state).1 = state.1 := by
  induction operations generalizing state with
  | nil => rfl
  | cons operation rest ih =>
    obtain ⟨other, others⟩ := List.forall_mem_cons.mp others
    have same := (perform_step operation state.1 state.2).unchanged isOpen other
    rw [after, ih _ (by rw [same]; exact isOpen) others, same]

/-- A disk with a partition in each of two tables. -/
def chained : Memory where
  image.size := 2048
  image.byte offset := ([(450, 0x83), (454, 1), (458, 1), (466, 0x0f), (470, 2), (510, 0x55), (511, 0xaa),
    (1474, 0x0c), (1478, 1), (1482, 1), (1534, 0x55), (1535, 0xaa)].lookup offset).getD 0

end Volume
end PartitionTable
