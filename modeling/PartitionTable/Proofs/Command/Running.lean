import PartitionTable.Proofs.Command.Reading
import PartitionTable.Proofs.Host
import PartitionTable.Proofs.Lifetime
import PartitionTable.Proofs.Opening.Route
import PartitionTable.Proofs.Reader.Safety

/-! One run of the command over a regular file, from the settings to the outcome. Before anything is
printed the chain was read to its end. Behind that only a partition that reaches beyond the last
position can still stop the printing, and the closing cannot fail. -/
namespace PartitionTable

def Extent.Placed (extent : Extent) (bytes : Nat) : Prop :=
  extent.table + extent.firstSector.toNat * bytes + extent.sectorCount.toNat * bytes ≤ Offset.maximum

namespace Command

def Row.ofExtent (bytes : Nat) (extent : Extent) : Row :=
  ⟨extent.kind, extent.table + extent.firstSector.toNat * bytes, extent.sectorCount.toNat * bytes⟩

def prepare (settings : Settings) (store : Store σ) : Act (Volume σ × World σ) Unit := do
  match settings.bytesPerSector with
  | some count => Volume.setBytesPerSector count
  | none => pure ()
  Volume.openOwned store

/-- A run begins with a new volume and a file that nobody has opened yet. -/
def beginning (source : String) (system : η) : Volume (File × η) × World (File × η) :=
  ({ token := ⟨0⟩ }, .start ({ path := source }, system))

/-- A size is asked for, or it is the smallest one that is assumed. -/
def Settings.Starts (settings : Settings) (start : SectorSize) : Prop :=
  start.bytes = settings.bytesPerSector.getD 512

section Rows

variable {volume : Volume σ} {mount : Mount σ} {extent : Extent} {extents : List Extent}

theorem reader_row (mounted : volume.mount = some mount) (listed : mount.partitions[index]? = some extent)
    (origin : 0 ≤ extent.table) :
    (extent.Placed volume.sectorSize.bytes.toNat ∧ ∃ reader, volume.reader index = .ok reader ∧
      (⟨reader.extent.kind, reader.start, reader.size⟩ : Row) = .ofExtent volume.sectorSize.bytes.toNat extent) ∨
    ¬ extent.Placed volume.sectorSize.bytes.toNat ∧ ∃ fault, volume.reader index = .error fault := by
  have nonzero : volume.sectorSize.bytes ≠ 0 := by
    cases volume.sectorSize <;> decide
  have made := Reader.ofExtent_succeeds_iff nonzero origin mount.store volume.token volume.options.cacheCapacity
  have asked : volume.reader index = Reader.ofExtent extent mount.store volume.token volume.sectorSize.bytes
      volume.options.cacheCapacity := by
    simp only [Volume.reader, mounted, listed]
  rcases given : volume.reader index with fault | reader
  · rw [← asked, given] at made
    refine .inr ⟨fun placed => ?_, fault, rfl⟩
    obtain ⟨_, impossible⟩ := made.mpr placed
    cases impossible
  · rw [← asked, given] at made
    obtain ⟨_, same⟩ := Reader.ofExtent_ok (asked.symm.trans given)
    exact .inl ⟨made.mp ⟨reader, rfl⟩, reader, rfl, by rw [same]; rfl⟩

/-- The rows of the partitions from one on come out complete, or one of them has no place. -/
theorem rows_from (mounted : volume.mount = some mount) (origin : ∀ extent ∈ mount.partitions, 0 ≤ extent.table)
    (split : mount.partitions = before ++ extents) :
    ((∀ extent ∈ extents, extent.Placed volume.sectorSize.bytes.toNat) ∧
      rows volume (List.range' before.length extents.length) =
        (extents.map (.ofExtent volume.sectorSize.bytes.toNat), .ok ())) ∨
    (¬ ∀ extent ∈ extents, extent.Placed volume.sectorSize.bytes.toNat) ∧
      ∃ fault, (rows volume (List.range' before.length extents.length)).2 = .error fault := by
  induction extents generalizing before with
  | nil => exact .inl ⟨nofun, rfl⟩
  | cons extent extents ih =>
    have listed : mount.partitions[before.length]? = some extent := by
      rw [split, List.getElem?_append_right (Nat.le_refl _), Nat.sub_self, List.getElem?_cons_zero]
    have behind : mount.partitions = (before ++ [extent]) ++ extents := by
      rw [split, List.append_assoc, List.singleton_append]
    have others := ih behind
    rw [List.length_append, List.length_singleton] at others
    rw [List.length_cons, List.range'_succ, rows, List.forall_mem_cons]
    rcases reader_row mounted listed (origin extent (List.mem_of_getElem? listed)) with
      ⟨placed, reader, made, row⟩ | ⟨beyond, fault, refused⟩
    · simp only [made, row]
      rcases others with ⟨rest, complete⟩ | ⟨rest, fault, stopped⟩
      · refine .inl ⟨⟨placed, rest⟩, ?_⟩
        rw [complete, List.map_cons]
      · exact .inr ⟨fun all => rest all.2, fault, stopped⟩
    · simp only [refused]
      exact .inr ⟨fun all => beyond all.1, fault, rfl⟩

theorem rows_range (mounted : volume.mount = some mount) (origin : ∀ extent ∈ mount.partitions, 0 ≤ extent.table) :
    ((∀ extent ∈ mount.partitions, extent.Placed volume.sectorSize.bytes.toNat) ∧
      rows volume (List.range mount.partitions.length) =
        (mount.partitions.map (.ofExtent volume.sectorSize.bytes.toNat), .ok ())) ∨
    (¬ ∀ extent ∈ mount.partitions, extent.Placed volume.sectorSize.bytes.toNat) ∧
      ∃ fault, (rows volume (List.range mount.partitions.length)).2 = .error fault := by
  rw [List.range_eq_range']
  exact rows_from mounted origin (List.nil_append _).symm

end Rows

section Describe

variable {settings : Settings} {store : Store σ} {volume : Volume σ} {mount : Mount σ} {world : World σ}
  {state later : Volume σ × World σ}

theorem prepare_supported {start : SectorSize} (starts : settings.Starts start) (token : Token) :
    (prepare settings store).run ({ token }, world) =
      (Volume.openOwned store).run ({ token, sectorSize := start }, world) := by
  rw [Settings.Starts] at starts
  rcases asked : settings.bytesPerSector with _ | count
  · rw [asked] at starts
    have smallest : start = .smallest := by
      cases start <;> first | rfl | exact absurd starts (by decide)
    simp [prepare, asked, smallest]
  · rw [asked, Option.getD_some] at starts
    simp [prepare, asked, ← starts, Act.run_bind, Volume.setBytesPerSector, Volume.current, Volume.replace]

theorem prepare_unsupported (unsupported : ¬ ∃ start, settings.Starts start) (token : Token) :
    (prepare settings store).run ({ token }, world) = (.error .invalidArgument, { token }, world) := by
  simp only [Settings.Starts] at unsupported
  rcases asked : settings.bytesPerSector with _ | count
  · exact absurd ⟨.of512, by rw [asked]; rfl⟩ unsupported
  · rw [asked, Option.getD_some] at unsupported
    have unknown : SectorSize.ofBytes? count = none := by
      rcases known : SectorSize.ofBytes? count with _ | start
      · rfl
      · exact absurd ⟨start, SectorSize.bytes_of_ofBytes? known⟩ unsupported
    simp [prepare, asked, unknown, Act.run_bind, Volume.setBytesPerSector, Volume.current]

def finish : Act (Volume σ × World σ) (String × Except Fault Unit) := do
  let volume ← Volume.current
  let count := volume.partitions.length
  let (rows, printed) := rows volume (List.range count)
  let text := Report.text ⟨volume.identity, volume.sectorSize.bytes, count⟩ rows
  match printed with
  | .error fault => return (text, .error fault)
  | .ok () => return (text, ← Volume.close.attempt)

theorem describe_eq (settings : Settings) (store : Store σ) :
    describe settings store = prepare settings store >>= fun _ => finish := by
  rcases asked : settings.bytesPerSector with _ | count
  all_goals
    simp only [describe, prepare, asked, bind_assoc]
    rfl

theorem describe_prepared (prepared : (prepare settings store).run state = (.ok (), later)) :
    (describe settings store).run state = finish.run later := by
  rw [describe_eq]
  exact Act.run_bind_ok prepared

theorem describe_unprepared (failed : (prepare settings store).run state = (.error fault, later)) :
    (describe settings store).run state = (.error fault, later) := by
  rw [describe_eq]
  exact Act.run_bind_error failed

theorem finish_complete (mounted : volume.mount = some mount) (closes : (Volume.close.run (volume, world)).1 = .ok ())
    (complete : rows volume (List.range mount.partitions.length) = (shown, .ok ())) :
    (finish.run (volume, world)).1 =
      .ok (Report.text ⟨mount.identity, volume.sectorSize.bytes, mount.partitions.length⟩ shown, .ok ()) := by
  rw [← closes]
  simp only [finish, Act.run_bind, Volume.current, Act.run_view, Volume.partitions, Volume.identity, mounted,
    Option.map_some, Option.getD_some, complete]
  rfl

theorem finish_stopped (mounted : volume.mount = some mount) (world : World σ)
    (stopped : (rows volume (List.range mount.partitions.length)).2 = .error fault) :
    ∃ text, (finish.run (volume, world)).1 = .ok (text, .error fault) := by
  simp only [finish, Act.run_bind, Volume.current, Act.run_view, Volume.partitions, Volume.identity, mounted,
    Option.map_some, Option.getD_some, stopped]
  exact ⟨_, rfl⟩

end Describe

def complaint (source : String) (fault : Fault) : String :=
  Report.lines [s!"Unable to open: {source}: {fault.message}"]

/-- The outcome by what was described of the disk. Whatever the log holds stands in front of the rest. -/
inductive Concludes (source : String) : Except Fault (String × Except Fault Unit) → Outcome → Prop where
  | done (log : String) : Concludes source (.ok (text, .ok ())) ⟨0, banner ++ text, log⟩
  | stopped (log : String) :
    Concludes source (.ok (text, .error fault)) ⟨1, banner ++ text, log ++ complaint source fault⟩
  | unopened (log : String) : Concludes source (.error fault) ⟨1, banner, log ++ complaint source fault⟩

theorem info_concludes (host : Host η) (system : η) (settings : Settings) (source : String) :
    Concludes source ((describe settings (File.store host)).run (beginning source system)).1
      (info host system settings source) := by
  rcases run : (describe settings (File.store host)).run (beginning source system) with
    ⟨fault | ⟨text, fault | done⟩, volume, world⟩
  all_goals
    rw [beginning] at run
    simp only [info, run]
  · rw [String.append_empty]
    exact .unopened _
  · exact .stopped _
  · exact .done _

def printed (image : Image) (offsets : List Nat) (bytes : Nat) : String :=
  let found := offsets.flatMap image.partitions
  banner ++ Report.text ⟨.ofNat (image.word 440), .ofNat bytes, found.length⟩ (found.map (.ofExtent bytes))

/-- A file that was opened and mounted along a route of its contents. -/
structure Mounted (host : Host η) (image : Image) (offsets : List Nat) (bytes : Nat) (volume : Volume (File × η))
    (mount : Mount (File × η)) : Prop where
  mounted : volume.mount = some mount
  store : mount.store = File.store host
  openedHere : mount.openedHere = true
  partitions : mount.partitions = offsets.flatMap image.partitions
  size : volume.sectorSize.bytes.toNat = bytes
  identity : mount.identity.toNat = image.word 440

section Route

variable {host : Host η} {image : Image} {source : String} {settings : Settings} {system : η} {idle : η → Prop}
  {held : Nat → η → Prop} {volume : Volume (File × η)} {mount : Mount (File × η)} {world : World (File × η)}

theorem partitions_table {extent : Extent} (listed : extent ∈ image.partitions table) : extent.table = table := by
  obtain ⟨slot, rfl⟩ := List.mem_ofFn.mp (List.mem_filter.mp listed).1
  rfl

theorem Mounted.close (along : Mounted host image offsets bytes volume mount) (world : World (File × η)) :
    (Volume.close.run (volume, world)).1 = .ok () := by
  rw [(Volume.close_run along.mounted world).1, along.openedHere, if_pos rfl, along.store]
  rfl

/-- Everything is printed, or a partition has no place. -/
theorem Mounted.finish (along : Mounted host image offsets bytes volume mount) (world : World (File × η)) :
    ((∀ extent ∈ offsets.flatMap image.partitions, extent.Placed bytes) ∧
      ∃ text, (finish.run (volume, world)).1 = .ok (text, .ok ()) ∧ banner ++ text = printed image offsets bytes) ∨
    (¬ ∀ extent ∈ offsets.flatMap image.partitions, extent.Placed bytes) ∧
      ∃ text fault, (finish.run (volume, world)).1 = .ok (text, .error fault) := by
  have origin : ∀ extent ∈ mount.partitions, 0 ≤ extent.table := by
    intro extent member
    rw [along.partitions] at member
    obtain ⟨table, _, listed⟩ := List.mem_flatMap.mp member
    rw [partitions_table listed]
    exact Int.natCast_nonneg table
  rcases rows_range along.mounted origin with ⟨placed, complete⟩ | ⟨beyond, fault, stopped⟩
  · rw [along.partitions, along.size] at placed
    refine .inl ⟨placed, _, finish_complete along.mounted (along.close world) complete, ?_⟩
    simp only [printed, ← along.identity, ← along.size, ← along.partitions, UInt32.ofNat_toNat]
  · rw [along.partitions, along.size] at beyond
    obtain ⟨text, ended⟩ := finish_stopped along.mounted world stopped
    exact .inr ⟨beyond, text, fault, ended⟩

section File

variable (offers : host.Offers source image idle held) (addressable : image.size ≤ Offset.maximum)
  (isIdle : idle system)

include offers addressable isIdle

theorem openOwned_file (start : SectorSize) :
    let volume : Volume (File × η) := { token := ⟨0⟩, sectorSize := start }
    let opened := (Volume.openOwned (File.store host)).run (volume, (beginning source system).2)
    ((∃ offsets bytes, image.Route start 256 offsets bytes) ∧ ∃ chain later, Volume.Along image start 256 chain ∧
      opened = volume.attached (File.store host) .ownedByVolume true image.size (.ok chain, later)) ∨
    (¬ ∃ offsets bytes, image.Route start 256 offsets bytes) ∧ ∃ fault later, opened = (.error fault, later) := by
  intro volume opened
  obtain ⟨number, later, holds, acquires⟩ := File.acquire_offers offers isIdle
  have acquired : (File.store host).acquire (beginning source system).2.stores = .ok () _ := acquires
  have sized : ∀ s, File.Holding held s →
      ∃ later, File.Holding held later ∧ (File.store host).size s = .ok image.size later :=
    fun _ holding => File.size_offers offers holding
  have holding : File.Holding held ({ path := source, number := some number }, later) := ⟨number, rfl, holds⟩
  have records : (File.store host).Records image volume.token (File.Holding held) :=
    (File.delivers offers addressable ⟨0⟩).records
  rcases Volume.openOwned_route records addressable sized rfl acquired holding rfl with
    along | ⟨astray, fault, later, failed⟩
  · exact .inl along
  · exact .inr ⟨astray, fault, _, failed⟩

/-- The file is mounted along any route from the size that a run starts with. -/
theorem prepare_along {start : SectorSize} (starts : settings.Starts start)
    (route : image.Route start 256 offsets bytes) :
    ∃ volume mount world, Mounted host image offsets bytes volume mount ∧
      (prepare settings (File.store host)).run (beginning source system) = (.ok (), volume, world) := by
  rcases openOwned_file offers addressable isIdle start with ⟨_, chain, later, along, opened⟩ | ⟨astray, _⟩
  · obtain ⟨partitions, size, identity⟩ := along _ _ route
    have prepared := (prepare_supported starts ⟨0⟩).trans opened
    exact ⟨_, _, _, ⟨rfl, rfl, rfl, partitions, size, identity⟩, prepared⟩
  · exact absurd ⟨_, _, route⟩ astray

theorem prepare_astray (astray : ¬ ∃ start offsets bytes, settings.Starts start ∧ image.Route start 256 offsets bytes) :
    ∃ fault later, (prepare settings (File.store host)).run (beginning source system) = (.error fault, later) := by
  by_cases supported : ∃ start, settings.Starts start
  · obtain ⟨start, starts⟩ := supported
    rcases openOwned_file offers addressable isIdle start with ⟨⟨offsets, bytes, route⟩, _⟩ | ⟨_, fault, later, failed⟩
    · exact absurd ⟨start, offsets, bytes, starts, route⟩ astray
    · exact ⟨fault, later, (prepare_supported starts ⟨0⟩).trans failed⟩
  · exact ⟨_, _, prepare_unsupported supported ⟨0⟩⟩

theorem info_along {start : SectorSize} (starts : settings.Starts start)
    (route : image.Route start 256 offsets bytes) :
    let outcome := info host system settings source
    let placed := ∀ extent ∈ offsets.flatMap image.partitions, extent.Placed bytes
    (placed ∧ outcome.exitCode = 0 ∧ outcome.output = printed image offsets bytes) ∨
      ¬ placed ∧ outcome.exitCode = 1 := by
  obtain ⟨volume, mount, world, along, prepared⟩ := prepare_along offers addressable isIdle starts route
  have concludes := info_concludes host system settings source
  rw [describe_prepared prepared] at concludes
  generalize info host system settings source = outcome at concludes
  rcases along.finish world with ⟨placed, text, ended, same⟩ | ⟨beyond, text, fault, ended⟩
  all_goals
    rw [ended] at concludes
    cases concludes
  · exact .inl ⟨placed, rfl, same⟩
  · exact .inr ⟨beyond, rfl⟩

theorem info_astray (astray : ¬ ∃ start offsets bytes, settings.Starts start ∧ image.Route start 256 offsets bytes) :
    ∃ fault log, ((describe settings (File.store host)).run (beginning source system)).1 = .error fault ∧
      info host system settings source = ⟨1, banner, log ++ complaint source fault⟩ := by
  obtain ⟨fault, later, failed⟩ := prepare_astray offers addressable isIdle astray
  have concludes := info_concludes host system settings source
  rw [describe_unprepared failed] at concludes ⊢
  generalize info host system settings source = outcome at concludes
  cases concludes with
  | unopened log => exact ⟨fault, log, rfl, rfl⟩

end File
end Route
end Command
end PartitionTable
