import PartitionTable.Proofs.Chain.Loop
import PartitionTable.Proofs.Lifetime
import PartitionTable.Proofs.Opening.Run

/-! A volume as a machine keeps it: nine fields, each of them written by itself when a store is attached
and when the volume is closed. Nothing in the record keeps the fields in agreement; only the operations
do, and what they leave behind is what the volume has in its mount. -/
namespace PartitionTable.Volume

structure Fields (σ : Type) where
  handle : Handle
  options : Options
  store : Option (Store σ) := none
  ownership : Option Ownership := none
  openedHere : Bool := false
  identity : UInt32 := 0
  size : Nat := 0
  partitions : List Extent := []
  sizeIsKnown : Bool := false

namespace Fields

def new (token : Token) (options : Options) : Fields σ := { handle := .new token, options }

def isOpen (fields : Fields σ) : Bool := fields.store.isSome

def write (change : Fields σ → Fields σ) : Act (Fields σ × World σ) Unit :=
  .change fun (fields, world) => (change fields, world)

/-- The step reads the chain of a store as the loops do that start with the sector size in the handle. -/
def Walks (fields : Fields σ) (store : Store σ) (walked : Act (World σ) Loop.Resolved) : Prop :=
  ∀ world, Loop.Runs ⟨store, fields.handle.token, fields.options.depthLimit⟩ (.start fields.handle.bytesPerSector)
    world (walked.run world).1 (walked.run world).2

section Operations

variable (walked : Act (World σ) Loop.Resolved) (store : Store σ)

/-- A size that was found out is marked; a mark that is there already is not taken away. -/
def attach (ownership : Ownership) (openedHere : Bool) : Act (Fields σ × World σ) Unit := do
  let size ← (ask store.size).beside
  let chain ← walked.beside
  (note (.volumeOpened size chain.partitions.length)).beside
  write fun fields => { fields with handle.bytesPerSector := chain.bytesPerSector }
  if chain.latched then write fun fields => { fields with sizeIsKnown := true }
  write fun fields => { fields with identity := chain.identity }
  write fun fields => { fields with size }
  write fun fields => { fields with partitions := chain.partitions }
  write fun fields => { fields with store := some store }
  write fun fields => { fields with ownership := some ownership }
  write fun fields => { fields with openedHere }

def attachOrRelease (ownership : Ownership) (openedHere : Bool) : Act (Fields σ × World σ) Unit := do
  match ← (attach walked store ownership openedHere).attempt with
  | .ok () => return ()
  | .error fault =>
    if openedHere then do
      let _ ← (ask store.release).attempt.beside
      .fail fault
    else .fail fault

def openOwned : Act (Fields σ × World σ) Unit := do
  let fields ← .view (·.1)
  if fields.isOpen then .fail .alreadyOpen
  else do
    (ask store.acquire).beside
    attachOrRelease walked store .ownedByVolume true

def openStore : Act (Fields σ × World σ) Unit := do
  let fields ← .view (·.1)
  if fields.isOpen then .fail .alreadyOpen
  else if ← .view (store.isOpen ·.2.stores) then attachOrRelease walked store .borrowedByCaller false
  else do
    (ask store.acquire).beside
    attachOrRelease walked store .borrowedByCaller true

end Operations

def close : Act (Fields σ × World σ) Unit := do
  let fields ← .view (·.1)
  match fields.store with
  | none => .fail .notOpen
  | some store =>
    write fun fields => { fields with store := none }
    let released ← if fields.openedHere then (ask store.release).attempt.beside else pure (.ok ())
    if let .error fault := released then (note (.storeNotClosed fault)).beside
    .change fun (fields, world) =>
      let (handle, signals) := fields.handle.clear world.signals
      ({ fields with handle }, { world with signals })
    write fun fields => { fields with ownership := none }
    write fun fields => { fields with openedHere := false }
    write fun fields => { fields with identity := 0 }
    write fun fields => { fields with size := 0 }
    write fun fields => { fields with partitions := [] }
    write fun fields => { fields with sizeIsKnown := false }
    .ofExcept released

def setBytesPerSector (count : UInt32) : Act (Fields σ × World σ) Unit := do
  let fields ← .view (·.1)
  if fields.sizeIsKnown then .fail .alreadySet
  else if fields.isOpen then .fail .alreadyOpen
  else if (SectorSize.ofBytes? count).isNone then .fail .invalidArgument
  else write fun fields => { fields with handle.bytesPerSector := count }

def abort : Act (Fields σ × World σ) Unit := .change fun (fields, world) =>
  (fields, { world with signals := world.signals.cancel fields.handle.token })

def reader (fields : Fields σ) (index : Nat) : Except Fault (Reader σ) :=
  match fields.store with
  | none => .error .notOpen
  | some store =>
    match fields.partitions[index]? with
    | none => .error .invalidArgument
    | some extent => Reader.ofExtent extent store fields.handle.token fields.handle.bytesPerSector
        fields.options.cacheCapacity

def perform (walked : Act (World σ) Loop.Resolved) : Operation σ → Act (Fields σ × World σ) Unit
  | .openOwned store => openOwned walked store
  | .openStore store => openStore walked store
  | .close => close
  | .setBytesPerSector count => setBytesPerSector count
  | .abort => abort
  | .reader index => do
    let fields ← .view (·.1)
    let _ ← .ofExcept (fields.reader index)
    return ()
  | .signal signal => .change fun (fields, world) =>
    (fields, { world with signals := world.signals.apply signal })
  | .outside change => .change fun (fields, world) => (fields, { world with stores := change world.stores })

end Fields

def Operation.opens? : Operation σ → Option (Store σ)
  | .openOwned store => some store
  | .openStore store => some store
  | _ => none

namespace Fields

/-- What an operation comes to. If it opens a store, the chain is read from the sector size of the moment. -/
def Performs (operation : Operation σ) (state : Fields σ × World σ) (result : Except Fault Unit)
    (later : Fields σ × World σ) : Prop :=
  ∃ walked, (∀ store ∈ operation.opens?, state.1.Walks store walked) ∧
    (perform walked operation).run state = (result, later)

inductive Leads : List (Operation σ) → Fields σ × World σ → Fields σ × World σ → Prop where
  | nil : Leads [] state state
  | cons : Performs operation state result middle → Leads rest middle last → Leads (operation :: rest) state last

/-- What the fields of a volume say of one another. -/
structure Sound (fields : Fields σ) : Prop where
  size : fields.handle.bytesPerSector ∈ [512, 1024, 2048, 4096]
  owned : fields.ownership.isSome = fields.isOpen
  empty : fields.isOpen = false → fields.identity = 0 ∧ fields.size = 0 ∧ fields.partitions = [] ∧
    fields.sizeIsKnown = false ∧ fields.openedHere = false
  known : fields.sizeIsKnown = true → fields.isOpen = true
  kinds : ∀ extent ∈ fields.partitions, extent.kind.code ∉ [0x00, 0x05, 0x0f]
  places : ∀ extent ∈ fields.partitions, 0 ≤ extent.table ∧ (512 : Int) ∣ extent.table
  ordered : (fields.partitions.map (·.table)).Pairwise (· ≤ ·)
  first : fields.sizeIsKnown = false → ∀ extent ∈ fields.partitions, extent.table = 0

end Fields

/-- A volume spread over the fields. -/
def fields (volume : Volume σ) : Fields σ where
  handle := volume.handle
  options := volume.options
  store := volume.mount.map (·.store)
  ownership := volume.ownership
  openedHere := (volume.mount.map (·.openedHere)).getD false
  identity := volume.identity
  size := volume.size
  partitions := volume.partitions
  sizeIsKnown := (volume.mount.map (·.sizeIsKnown)).getD false

theorem isOpen_fields (volume : Volume σ) : volume.fields.isOpen = volume.isOpen := Option.isSome_map

theorem fields_closed {volume : Volume σ} (closed : volume.mount = none) :
    volume.fields = { handle := volume.handle, options := volume.options } := by
  simp [fields, ownership, identity, size, partitions, closed]

theorem fields_mounted {volume : Volume σ} {mount : Mount σ} (mounted : volume.mount = some mount) :
    volume.fields = ⟨volume.handle, volume.options, some mount.store, some mount.ownership, mount.openedHere,
      mount.identity, mount.size, mount.partitions, mount.sizeIsKnown⟩ := by
  simp [fields, ownership, identity, size, partitions, mounted]

def spread : Except Fault Unit × Volume σ × World σ → Except Fault Unit × Fields σ × World σ
  | (result, volume, world) => (result, volume.fields, world)

section Simulation

variable {store : Store σ} {volume : Volume σ} {world : World σ} {walked : Act (World σ) Loop.Resolved}

def resolved (volume : Volume σ) (store : Store σ) : Act (World σ) Loop.Resolved :=
  Loop.Resolved.ofChain <$> (volume.walk store).resolve volume.sectorSize

theorem run_resolved (volume : Volume σ) (store : Store σ) (world : World σ) :
    (volume.resolved store).run world =
      ((((volume.walk store).resolve volume.sectorSize).run world).1.map .ofChain,
        (((volume.walk store).resolve volume.sectorSize).run world).2) := by
  rw [resolved, map_eq_pure_bind, Act.run_bind]
  rcases ((volume.walk store).resolve volume.sectorSize).run world with ⟨_ | _, _⟩ <;> rfl

theorem walks_resolved (volume : Volume σ) (store : Store σ) :
    volume.fields.Walks store (volume.resolved store) := by
  intro world
  rw [run_resolved]
  exact Loop.resolve_runs (volume.walk store) volume.sectorSize world

theorem walks_eq (walks : volume.fields.Walks store walked) : walked = volume.resolved store := by
  refine Act.ext fun world => ?_
  have same := (walks world).unique (walks_resolved volume store world)
  exact Prod.ext same.1 same.2

theorem attach_fields (closed : volume.mount = none) (ownership : Ownership) (openedHere : Bool) :
    (Fields.attach (volume.resolved store) store ownership openedHere).run (volume.fields, world) =
      spread ((attach store ownership openedHere).run (volume, world)) := by
  rcases sized : (store.size world.stores).result with fault | bytes
  · simp only [attach_unsized sized, Fields.attach, Act.run_bind, Act.run_beside, run_ask, sized, spread]
  · rw [attach_sized sized]
    simp only [Fields.attach, Act.run_bind, Act.run_beside, run_ask, sized, run_resolved]
    rcases ((volume.walk store).resolve volume.sectorSize).run (world.absorb (store.size world.stores)) with
      ⟨fault | chain, later⟩
    · rfl
    · rw [fields_closed closed]
      simp only [Except.map, run_note, Loop.Resolved.ofChain]
      cases known : chain.sizeIsKnown <;> simp only [attached, spread, fields, known] <;> rfl

theorem attachOrRelease_fields (closed : volume.mount = none) (ownership : Ownership) (openedHere : Bool) :
    (Fields.attachOrRelease (volume.resolved store) store ownership openedHere).run (volume.fields, world) =
      spread ((attachOrRelease store ownership openedHere).run (volume, world)) := by
  have attached : (Fields.attach (volume.resolved store) store ownership openedHere).run (volume.fields, world) = _ :=
    attach_fields closed ownership openedHere
  simp only [Fields.attachOrRelease, Act.run_bind, Act.run_attempt, attached]
  rcases run : (attach store ownership openedHere).run (volume, world) with ⟨fault | done, later⟩
  · rw [attachOrRelease_failed run]
    cases openedHere <;> rfl
  · rw [attachOrRelease_done run]
    rfl

theorem acquireAndAttach_fields (closed : volume.mount = none) (ownership : Ownership) :
    ((ask store.acquire).beside >>= fun _ =>
      Fields.attachOrRelease (volume.resolved store) store ownership true).run (volume.fields, world) =
      spread ((acquireAndAttach store ownership).run (volume, world)) := by
  simp only [acquireAndAttach, Act.run_bind, Act.run_beside, run_ask]
  rcases (store.acquire world.stores).result with fault | done
  · rfl
  · exact attachOrRelease_fields closed ownership true

theorem openOwned_fields : (Fields.openOwned (volume.resolved store) store).run (volume.fields, world) =
    spread ((openOwned store).run (volume, world)) := by
  simp only [Fields.openOwned, Act.run_bind, Act.run_view, isOpen_fields]
  cases isOpen : volume.isOpen with
  | true =>
    rw [opening_refused (.inr rfl) isOpen]
    rfl
  | false =>
    rw [openOwned_closed isOpen]
    exact acquireAndAttach_fields (not_isOpen (Bool.not_eq_true _ ▸ isOpen)) _

theorem openStore_fields : (Fields.openStore (volume.resolved store) store).run (volume.fields, world) =
    spread ((openStore store).run (volume, world)) := by
  simp only [Fields.openStore, Act.run_bind, Act.run_view, isOpen_fields]
  cases isOpen : volume.isOpen with
  | true =>
    rw [opening_refused (.inl rfl) isOpen]
    rfl
  | false =>
    have closed : volume.mount = none := not_isOpen (Bool.not_eq_true _ ▸ isOpen)
    simp only [Bool.false_eq_true, ↓reduceIte, Act.run_bind, Act.run_view]
    cases ready : store.isOpen world.stores with
    | true =>
      rw [openStore_ready isOpen ready]
      exact attachOrRelease_fields closed _ _
    | false =>
      rw [openStore_unready isOpen ready]
      exact acquireAndAttach_fields closed _

theorem close_fields : Fields.close.run (volume.fields, world) = spread (close.run (volume, world)) := by
  cases mounted : volume.mount with
  | none =>
    rw [fields_closed mounted, close_closed (by simp [isOpen, mounted])]
    simp only [spread, fields_closed mounted]
    rfl
  | some mount =>
    rw [fields_mounted mounted]
    simp only [close, current, Act.run_bind, Act.run_view, mounted, Act.run_beside, Act.run_attempt, Act.run_change,
      releaseMount]
    cases openedHere : mount.openedHere with
    | false => rfl
    | true =>
      simp only [Fields.close, Fields.write, Act.run_bind, Act.run_view, Act.run_change, Act.run_beside,
        Act.run_attempt, run_ask, ↓reduceIte]
      cases (mount.store.release world.stores).result <;> rfl

theorem setBytesPerSector_fields (count : UInt32) :
    (Fields.setBytesPerSector count).run (volume.fields, world) =
      spread ((setBytesPerSector count).run (volume, world)) := by
  simp only [Fields.setBytesPerSector, setBytesPerSector, current, Act.run_bind, Act.run_view]
  cases mounted : volume.mount with
  | some mount =>
    rw [fields_mounted mounted]
    cases known : mount.sizeIsKnown <;> simp [spread, fields_mounted mounted, Fields.isOpen, known]
  | none =>
    rw [fields_closed mounted]
    cases supported : SectorSize.ofBytes? count with
    | none => simp [spread, fields_closed mounted, Fields.isOpen]
    | some size =>
      simp [spread, fields_closed, Fields.isOpen, Fields.write, replace, handle,
        SectorSize.bytes_of_ofBytes? supported]

theorem reader_fields (volume : Volume σ) (index : Nat) : volume.fields.reader index = volume.reader index := by
  cases mounted : volume.mount with
  | none => simp [Fields.reader, reader, fields_closed, mounted]
  | some mount =>
    cases found : mount.partitions[index]? <;>
      simp [Fields.reader, reader, fields_mounted mounted, mounted, handle, found]

theorem perform_fields {operation : Operation σ} (walks : ∀ store ∈ operation.opens?, walked = volume.resolved store) :
    (Fields.perform walked operation).run (volume.fields, world) =
      spread ((perform operation).run (volume, world)) := by
  cases operation with
  | openOwned store =>
    obtain rfl := walks store rfl
    exact openOwned_fields
  | openStore store =>
    obtain rfl := walks store rfl
    exact openStore_fields
  | close => exact close_fields
  | setBytesPerSector count => exact setBytesPerSector_fields count
  | reader index =>
    simp only [Fields.perform, perform, current, Act.run_bind, Act.run_view, Act.run_ofExcept, reader_fields]
    cases volume.reader index <;> rfl
  | abort | signal | outside => rfl

/-- The fields do what the volume does, and nothing else. -/
theorem performs_iff {operation : Operation σ} : Fields.Performs operation (volume.fields, world) result later ↔
    (result, later) = spread ((perform operation).run (volume, world)) := by
  constructor
  · rintro ⟨walked, walks, run⟩
    rw [← run]
    exact perform_fields fun store opens => walks_eq (walks store opens)
  · intro same
    let walked : Act (World σ) Loop.Resolved := operation.opens?.elim (.fail .notOpen) volume.resolved
    have same' (store : Store σ) (opens : store ∈ operation.opens?) : walked = volume.resolved store := by
      simp only [walked, Option.mem_def.mp opens, Option.elim_some]
    refine ⟨walked, fun store opens => same' store opens ▸ walks_resolved volume store, ?_⟩
    rw [same]
    exact perform_fields same'

theorem leads_iff {operations : List (Operation σ)} : Fields.Leads operations (volume.fields, world) last ↔
    last = ((after operations (volume, world)).1.fields, (after operations (volume, world)).2) := by
  induction operations generalizing volume world with
  | nil =>
    constructor
    · rintro ⟨⟩
      rfl
    · rintro rfl
      exact .nil
  | cons operation rest ih =>
    constructor
    · rintro (_ | ⟨performs, leads⟩)
      cases performs_iff.mp performs
      exact ih.mp leads
    · rintro rfl
      exact .cons (performs_iff.mpr rfl) (ih.mpr rfl)

end Simulation

variable {token : Token} {options : Options}

theorem bytes_mem (size : SectorSize) : size.bytes ∈ ([512, 1024, 2048, 4096] : List UInt32) := by
  cases size <;> decide

theorem Kept.sound {volume : Volume σ} (kept : volume.Kept token options) : volume.fields.Sound := by
  cases mounted : volume.mount with
  | none =>
    rw [fields_closed mounted]
    exact ⟨bytes_mem volume.sectorSize, rfl, fun _ => ⟨rfl, rfl, rfl, rfl, rfl⟩, nofun, nofun, nofun, .nil, nofun⟩
  | some mount =>
    have listed := kept.listed mount mounted
    rw [fields_mounted mounted]
    exact ⟨bytes_mem volume.sectorSize, rfl, nofun, fun _ => rfl, listed.kinds, listed.places, listed.ordered,
      listed.first⟩

theorem perform_opens {operation : Operation σ} (opens : operation ∈ [.openStore store, .openOwned store]) :
    perform operation ∈ [openStore store, openOwned store] := by
  rcases List.mem_pair.mp opens with rfl | rfl <;> simp [perform]

/-- Whatever happened to a new volume, its fields agree. An opening that succeeds leaves it open, and from
then on each field stays as it is, whatever happens, until the volume is closed. Closing makes it a new
volume again, with the flag down, and tells only whether the store could be closed. -/
theorem Fields.lifetime (token : Token) (options : Options) (world : World σ) (operations : List (Operation σ)) :
    ∃ fields reached, (∀ state, Leads operations (new token options, world) state ↔ state = (fields, reached)) ∧
      fields.Sound ∧
      (∀ store, ∀ opening ∈ [Operation.openStore store, .openOwned store], ∀ later,
        Performs opening (fields, reached) (.ok ()) later → later.1.isOpen = true) ∧
      (fields.isOpen = true → ∀ rest, (∀ operation ∈ rest, operation ≠ .close) → ∀ later,
        Leads rest (fields, reached) later → later.1 = fields) ∧
      ∀ store, fields.store = some store → ∃ last,
        close.run (fields, reached) = (if fields.openedHere then (store.release reached.stores).result else .ok (),
          new token options, last) ∧
        last.signals.raised token = false := by
  let start : Volume σ := { token, options }
  have kept := after_kept operations (start, world) ⟨rfl, rfl, nofun⟩
  have leads (state) : Leads operations (start.fields, world) state ↔ _ := leads_iff
  generalize after operations (start, world) = reached at kept leads
  obtain ⟨volume, reached⟩ := reached
  refine ⟨volume.fields, reached, leads, kept.sound, ?_, ?_, ?_⟩
  · intro store opening opens later performs
    have told := performs_iff.mp performs
    rcases run : (Volume.perform opening).run (volume, reached) with ⟨result, final, last⟩
    rw [run] at told
    cases told
    exact (isOpen_fields final).trans (opening_ok (perform_opens opens) run)
  · intro isOpen rest others later onward
    have same := after_unchanged rest (volume, reached) (isOpen_fields volume ▸ isOpen) others
    rw [leads_iff.mp onward, same]
  · intro store attached
    obtain ⟨mount, mounted, rfl⟩ := Option.map_eq_some_iff.mp attached
    obtain ⟨result, closed, lowered⟩ := close_run mounted reached
    rw [kept.token, kept.options] at closed
    rw [kept.token] at lowered
    have here : volume.fields.openedHere = mount.openedHere := congrArg Fields.openedHere (fields_mounted mounted)
    rw [close_fields, here, ← result]
    exact ⟨_, Prod.ext rfl (Prod.ext (congrArg fields closed) rfl), lowered⟩

theorem Fields.lifetime_chained :
    ∃ fields reached,
      Leads [.setBytesPerSector 512, .openStore Memory.store] (new ⟨0⟩ {}, .start chained) (fields, reached) ∧
      fields.partitions.map (·.table) = [0, 1024] ∧ fields.sizeIsKnown = true ∧ fields.openedHere = true ∧
      fields.Sound ∧
      (∀ later, Leads [.abort, .setBytesPerSector 4096, .reader 7] (fields, reached) later → later.1 = fields) ∧
      (close.run (fields, reached)).2.1 = new ⟨0⟩ {} := by
  let start : Volume Memory := { token := ⟨0⟩ }
  let opened := after [.setBytesPerSector 512, .openStore Memory.store] (start, .start chained)
  have tables : opened.1.fields.partitions.map (·.table) = [0, 1024] := by decide +kernel
  have known : opened.1.fields.sizeIsKnown = true := by decide +kernel
  have here : opened.1.fields.openedHere = true := by decide +kernel
  obtain ⟨fields, reached, leads, sound, -, unchanged, closes⟩ :=
    lifetime ⟨0⟩ {} (.start chained) [.setBytesPerSector 512, .openStore Memory.store]
  have arrived : Leads _ (start.fields, .start chained) (fields, reached) := (leads (fields, reached)).mpr rfl
  have same : (fields, reached) = (opened.1.fields, opened.2) := leads_iff.mp arrived
  clear_value opened
  cases same
  obtain ⟨store, attached⟩ := Option.isSome_iff_exists.mp (sound.known known)
  obtain ⟨_, closed, _⟩ := closes store attached
  refine ⟨_, _, arrived, tables, known, here, sound, unchanged (sound.known known) _ (by simp), ?_⟩
  rw [closed]

end PartitionTable.Volume
