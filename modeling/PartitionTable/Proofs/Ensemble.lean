import PartitionTable.Proofs.Lifetime
import PartitionTable.Proofs.Opening.Run
import PartitionTable.Proofs.Reader.Reads
import PartitionTable.Proofs.Transcript

/-! A volume, the readers that were made from it, and the stores below them, through anything that
can happen to any of them in any order. Whoever holds the token may use it, and the stores change
by themselves. What the volume and its readers ask of the stores is all in one transcript. -/
namespace PartitionTable

/-- What can happen. Stores go by their labels and readers by the order in which they were made. -/
inductive Happening (ι σ : Type) where
  | openOwned (label : ι)
  | openStore (label : ι)
  | close
  | setBytesPerSector (count : UInt32)
  | abort
  | discard
  | reader (index : Nat)
  | request (number : Nat) (request : Request)
  | signal (signal : Signal)
  | outside (change : σ → σ)

/-- A volume that is gone leaves its readers behind. -/
structure Ensemble (ι σ : Type) where
  volume : Option (Volume (Archive ι σ))
  readers : List (Reader (Archive ι σ))
  world : World (Archive ι σ)

namespace Ensemble

def new (token : Token) (options : Options) (world : World (Archive ι σ)) : Ensemble ι σ :=
  ⟨some { token, options }, [], world⟩

def operate (act : Act (Volume (Archive ι σ) × World (Archive ι σ)) Unit) (ensemble : Ensemble ι σ) : Ensemble ι σ :=
  match ensemble.volume with
  | none => ensemble
  | some volume =>
    let (volume, world) := (act.run (volume, ensemble.world)).2
    { ensemble with volume := some volume, world }

def discard (ensemble : Ensemble ι σ) : Ensemble ι σ :=
  match ensemble.volume with
  | none => ensemble
  | some volume => { ensemble with volume := none, world := volume.discard ensemble.world }

def engage (index : Nat) (ensemble : Ensemble ι σ) : Ensemble ι σ :=
  match ensemble.volume with
  | none => ensemble
  | some volume =>
    match volume.reader index with
    | .ok reader => { ensemble with readers := ensemble.readers ++ [reader] }
    | .error _ => ensemble

def serve (number : Nat) (request : Request) (ensemble : Ensemble ι σ) : Ensemble ι σ :=
  match ensemble.readers[number]? with
  | none => ensemble
  | some reader =>
    let (reader, world) := (Reader.respond request (reader, ensemble.world)).2
    { ensemble with readers := ensemble.readers.set number reader, world }

variable (stores : ι → Store σ)

def step : Happening ι σ → Ensemble ι σ → Ensemble ι σ
  | .openOwned label => operate (Volume.openOwned ((stores label).transcribed label))
  | .openStore label => operate (Volume.openStore ((stores label).transcribed label))
  | .close => operate Volume.close
  | .setBytesPerSector count => operate (Volume.setBytesPerSector count)
  | .abort => operate Volume.abort
  | .discard => discard
  | .reader index => engage index
  | .request number request => serve number request
  | .signal signal => fun ensemble =>
    { ensemble with world := { ensemble.world with signals := ensemble.world.signals.apply signal } }
  | .outside change => fun ensemble =>
    let (state, transcript) := ensemble.world.stores
    { ensemble with world := { ensemble.world with stores := (change state, transcript) } }

def after : List (Happening ι σ) → Ensemble ι σ → Ensemble ι σ
  | [], ensemble => ensemble
  | happening :: rest, ensemble => after rest (step stores happening ensemble)

end Ensemble

/-- A reader of one of the stores, over a range that does not begin before it. -/
structure Reader.Belongs (stores : ι → Store σ) (token : Token) (reader : Reader (Archive ι σ)) : Prop where
  token : reader.token = token
  store : ∃ label, reader.store = (stores label).transcribed label
  positive : 0 < reader.bytesPerSector.toNat
  start : 0 ≤ reader.start

structure Volume.Belongs (stores : ι → Store σ) (token : Token) (volume : Volume (Archive ι σ)) : Prop where
  kept : ∃ options, volume.Kept token options
  store : ∀ mount, volume.mount = some mount → ∃ label, mount.store = (stores label).transcribed label

/-- The invariant of all happenings. -/
structure Ensemble.Sound (stores : ι → Store σ) (token : Token) (ensemble : Ensemble ι σ) : Prop where
  volume : ∀ volume, ensemble.volume = some volume → volume.Belongs stores token
  readers : ∀ reader ∈ ensemble.readers, reader.Belongs stores token

namespace Volume

variable {store : Store σ} {volume : Volume σ} {world : World σ}

theorem opening_mount {opening : Act (Volume σ × World σ) Unit}
    (either : opening = openStore store ∨ opening = openOwned store) {found : Mount σ}
    (mounted : (opening.run (volume, world)).2.1.mount = some found) :
    volume.mount = some found ∨ found.store = store := by
  let kept (later : Volume σ) (_ : World σ) : Prop :=
    ∀ found, later.mount = some found → volume.mount = some found ∨ found.store = store
  have invariant : OpeningInvariant store kept :=
    { asks := fun _ _ _ _ holds => holds
      walks := fun _ _ holds => holds
      mounts := fun _ _ _ _ _ _ _ found same => .inr (Option.some.inj same ▸ rfl) }
  have holds : kept volume world := fun _ => .inl
  exact invariant.opening holds either found mounted

theorem Step.mount {later : Volume σ} (step : Step volume operation later)
    (other : ∀ store, operation ∉ [.openStore store, .openOwned store]) (mounted : later.mount = some found) :
    volume.mount = some found := by
  cases step with
  | same => exact mounted
  | mounted opens => exact absurd opens (other _)
  | sized => cases mounted
  | closed => cases mounted

end Volume

section Belongs

variable {stores : ι → Store σ} {token : Token} {volume : Volume (Archive ι σ)} {reader : Reader (Archive ι σ)}

theorem Volume.Belongs.performed (belongs : volume.Belongs stores token) (operation : Volume.Operation (Archive ι σ))
    (opens : ∀ store, operation ∈ [.openStore store, .openOwned store] →
      ∃ label, store = (stores label).transcribed label)
    (world : World (Archive ι σ)) : ((perform operation).run (volume, world)).2.1.Belongs stores token := by
  have step := perform_step operation volume world
  obtain ⟨options, kept⟩ := belongs.kept
  refine ⟨⟨options, step.kept kept⟩, fun found mounted => ?_⟩
  by_cases other : ∀ store, operation ∉ [.openStore store, .openOwned store]
  · exact belongs.store found (step.mount other mounted)
  · simp only [not_forall, not_not] at other
    obtain ⟨store, opening⟩ := other
    have either : perform operation = openStore store ∨ perform operation = openOwned store := by
      rcases List.mem_pair.mp opening with rfl | rfl
      · exact .inl rfl
      · exact .inr rfl
    rcases opening_mount either mounted with before | same
    · exact belongs.store found before
    · obtain ⟨label, known⟩ := opens store opening
      exact ⟨label, same.trans known⟩

/-- A reader that was made reads the mounted store, with the token of its volume. -/
theorem Volume.Belongs.engaged (belongs : volume.Belongs stores token) (made : volume.reader index = .ok reader) :
    reader.Belongs stores token := by
  obtain ⟨options, kept⟩ := belongs.kept
  rcases mounted : volume.mount with _ | mount
  · simp [Volume.reader, mounted] at made
  rcases listed : mount.partitions[index]? with _ | extent
  · simp [Volume.reader, mounted, listed] at made
  simp only [Volume.reader, mounted, listed] at made
  obtain ⟨place, _⟩ := (kept.listed mount mounted).places extent (List.mem_of_getElem? listed)
  have positive := Reader.ofExtent_positive made
  obtain ⟨_, rfl⟩ := Reader.ofExtent_ok made
  have distance : (0 : Int) ≤ extent.firstSector.toNat * volume.sectorSize.bytes.toNat :=
    Int.mul_nonneg (Int.natCast_nonneg _) (Int.natCast_nonneg _)
  exact ⟨kept.token, belongs.store mount mounted, positive, Int.add_nonneg place distance⟩

namespace Reader

theorem respond_fields (request : Request) (reader : Reader σ) (world : World σ) :
    ∃ cache cursor, (respond request (reader, world)).2.1 = { reader with cache, cursor } := by
  rcases range : request.range? reader.cursor with _ | ⟨offset, length⟩
  · rw [respond_resting range ⟨0, fun _ => 0⟩]
    exact ⟨_, _, rfl⟩
  · obtain ⟨result, cache, later, run, _⟩ := reader.readFrom_draws (fun _ _ => True) offset length world
    rw [respond_reading range, run]
    exact ⟨_, _, rfl⟩

theorem Belongs.responded (belongs : reader.Belongs stores token) (request : Request) (world : World (Archive ι σ)) :
    (respond request (reader, world)).2.1.Belongs stores token := by
  obtain ⟨cache, cursor, same⟩ := respond_fields request reader world
  rw [same]
  exact ⟨belongs.token, belongs.store, belongs.positive, belongs.start⟩

end Reader
end Belongs

namespace Ensemble

variable {stores : ι → Store σ} {token : Token} {ensemble : Ensemble ι σ}

theorem Sound.operated (sound : ensemble.Sound stores token) (operation : Volume.Operation (Archive ι σ))
    (opens : ∀ store, operation ∈ [.openStore store, .openOwned store] →
      ∃ label, store = (stores label).transcribed label) :
    (operate (Volume.perform operation) ensemble).Sound stores token := by
  rcases present : ensemble.volume with _ | volume
  · simpa [operate, present] using sound
  · have belongs := (sound.volume volume present).performed operation opens ensemble.world
    simp only [operate, present]
    exact ⟨fun later same => Option.some.inj same ▸ belongs, sound.readers⟩

theorem Sound.discarded (sound : ensemble.Sound stores token) : (discard ensemble).Sound stores token := by
  rcases present : ensemble.volume with _ | volume
  · simpa [discard, present] using sound
  · simp only [discard, present]
    exact ⟨nofun, sound.readers⟩

theorem Sound.engaged (sound : ensemble.Sound stores token) (index : Nat) :
    (engage index ensemble).Sound stores token := by
  rcases present : ensemble.volume with _ | volume
  · simpa [engage, present] using sound
  rcases made : volume.reader index with fault | reader
  · simpa [engage, present, made] using sound
  · simp only [engage, present, made]
    refine ⟨present ▸ sound.volume, fun other member => ?_⟩
    rcases List.mem_append.mp member with early | late
    · exact sound.readers other early
    · rw [List.mem_singleton.mp late]
      exact (sound.volume volume present).engaged made

theorem Sound.served (sound : ensemble.Sound stores token) (number : Nat) (request : Request) :
    (serve number request ensemble).Sound stores token := by
  rcases present : ensemble.readers[number]? with _ | reader
  · simpa [serve, present] using sound
  · have belongs := (sound.readers reader (List.mem_of_getElem? present)).responded request ensemble.world
    simp only [serve, present]
    refine ⟨sound.volume, fun other member => ?_⟩
    rcases List.mem_or_eq_of_mem_set member with before | rfl
    · exact sound.readers other before
    · exact belongs

theorem Sound.stepped (sound : ensemble.Sound stores token) (happening : Happening ι σ) :
    (step stores happening ensemble).Sound stores token := by
  cases happening with
  | openOwned label => exact sound.operated (.openOwned _) (by simpa using ⟨label, rfl⟩)
  | openStore label => exact sound.operated (.openStore _) (by simpa using ⟨label, rfl⟩)
  | close => exact sound.operated .close (by simp)
  | setBytesPerSector count => exact sound.operated (.setBytesPerSector count) (by simp)
  | abort => exact sound.operated .abort (by simp)
  | discard => exact sound.discarded
  | reader index => exact sound.engaged index
  | request number request => exact sound.served number request
  | signal => exact ⟨sound.volume, sound.readers⟩
  | outside => exact ⟨sound.volume, sound.readers⟩

theorem Sound.after (sound : ensemble.Sound stores token) (history : List (Happening ι σ)) :
    (after stores history ensemble).Sound stores token := by
  induction history generalizing ensemble with
  | nil => exact sound
  | cons happening rest ih => exact ih (sound.stepped happening)

theorem new_sound (stores : ι → Store σ) (token : Token) (options : Options) (world : World (Archive ι σ)) :
    (new token options world).Sound stores token where
  volume _ same := Option.some.inj same ▸ ⟨⟨options, rfl, rfl, nofun⟩, nofun⟩
  readers := nofun

end Ensemble
end PartitionTable
