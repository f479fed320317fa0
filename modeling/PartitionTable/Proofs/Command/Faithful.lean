import PartitionTable.Proofs.Command.Running

/-! What the command reports of a regular file is what stands in the file. A report is either complete,
and then the numbers read back from it are those along the route of the file, or there is none. -/
namespace PartitionTable

namespace Image.Route

variable {image : Image} {start : SectorSize} {offsets : List Nat} {limit bytes : Nat}

theorem identity_eq (route : image.Route start limit offsets bytes) :
    (UInt32.ofNat (image.word 440)).toNat = image.word 440 := by
  have origin := route.tables 0 (List.mem_of_head? route.origin)
  have identity := image.identity_eq origin start
  rw [Nat.zero_add] at identity
  rw [← identity, UInt32.ofNat_toNat]

theorem bytes_eq (route : image.Route start limit offsets bytes) : (UInt32.ofNat bytes).toNat = bytes := by
  obtain ⟨size, rfl, _⟩ := route.settles
  rw [UInt32.ofNat_toNat]

/-- Two products of a number of sectors and a sector size stay below 2 ^ 45, so beside a table of an
image that leaves as much room every partition has its place. -/
theorem placed (route : image.Route start limit offsets bytes) (room : image.size ≤ 2 ^ 63 - 2 ^ 45) :
    ∀ extent ∈ offsets.flatMap image.partitions, extent.Placed bytes := by
  intro extent member
  obtain ⟨table, visited, listed⟩ := List.mem_flatMap.mp member
  obtain ⟨inside, _⟩ := route.tables table visited
  obtain ⟨size, rfl, _⟩ := route.settles
  have largest := size.bytes_le
  have far (sectors : UInt32) : sectors.toNat * size.bytes.toNat ≤ 4294967295 * 4096 :=
    Nat.mul_le_mul (Nat.le_of_lt_succ sectors.toNat_lt) largest
  have first := far extent.firstSector
  have count := far extent.sectorCount
  rw [Extent.Placed, Command.partitions_table listed, Offset.maximum]
  omega

end Image.Route

namespace Command

def Contents.along (image : Image) (offsets : List Nat) (bytes : Nat) : Contents :=
  let found := offsets.flatMap image.partitions
  { identity := image.word 440
    bytesPerSector := bytes
    partitions := found.length
    blocks := found.mapIdx fun index extent => {
      number := index + 1
      code := extent.kind.code.toNat
      name := extent.kind.name
      offset := extent.table + extent.firstSector.toNat * bytes
      hexOffset := extent.table + extent.firstSector.toNat * bytes
      size := extent.sectorCount.toNat * bytes } }

theorem read?_printed {image : Image} {start : SectorSize} {offsets : List Nat} {limit bytes : Nat}
    (route : image.Route start limit offsets bytes)
    (placed : ∀ extent ∈ offsets.flatMap image.partitions, extent.Placed bytes) :
    Report.read? (printed image offsets bytes) = some (.along image offsets bytes) := by
  have fits : ∀ row ∈ (offsets.flatMap image.partitions).map (Row.ofExtent bytes),
      0 ≤ row.offset ∧ row.offset ≤ Offset.maximum := by
    intro row member
    obtain ⟨extent, found, rfl⟩ := List.mem_map.mp member
    obtain ⟨table, _, listed⟩ := List.mem_flatMap.mp found
    have place := placed extent found
    rw [Extent.Placed, partitions_table listed] at place
    simp only [Row.ofExtent, partitions_table listed]
    have forward (sectors : UInt32) : (0 : Int) ≤ (sectors.toNat * bytes : Nat) := Int.natCast_nonneg _
    have first := forward extent.firstSector
    have count := forward extent.sectorCount
    omega
  have blocks : ((offsets.flatMap image.partitions).map (Row.ofExtent bytes)).mapIdx
      (fun index row => Block.ofRow (index + 1) row) = (Contents.along image offsets bytes).blocks := by
    refine List.ext_getElem? fun index => ?_
    simp only [Contents.along, List.getElem?_mapIdx, List.getElem?_map, Option.map_map]
    rfl
  rw [printed, Report.read?_text _ _ (List.length_map _).symm fits, blocks]
  simp only [Contents.along, route.identity_eq, route.bytes_eq, List.length_map]

section Run

variable {host : Host η} {image : Image} {source : String} {settings : Settings} {arguments : List String} {system : η}
  {idle : η → Prop} {held : Nat → η → Prop}

theorem run_info (accepted : Arguments.read arguments = .ok (.info settings)) (named : settings.source = some source) :
    run host system arguments = info host system settings source := by
  simp only [run, accepted, named]

/-- For any regular file, any host that has it and any command line that names it: a run succeeds exactly
if the size that was asked for is a sector size and a route leads from it through the file. Its report
then reads back as what stands along the route, block by block. Otherwise nothing is printed behind the
banner, and the fault that the disk failed with is told at the end of the other text. The file leaves
room behind it for the farthest partition that a table can describe. -/
theorem run_faithful (offers : host.Offers source image idle held) (room : image.size ≤ 2 ^ 63 - 2 ^ 45)
    (isIdle : idle system) (accepted : Arguments.read arguments = .ok (.info settings))
    (named : settings.source = some source) :
    let outcome := run host system arguments
    (outcome.exitCode = 0 ↔ ∃ start offsets bytes, settings.Starts start ∧ image.Route start 256 offsets bytes) ∧
    (∀ start offsets bytes, settings.Starts start → image.Route start 256 offsets bytes →
      Report.read? outcome.output = some (.along image offsets bytes)) ∧
    (outcome.exitCode ≠ 0 → outcome.output = banner ∧ ∃ fault log,
      ((describe settings (File.store host)).run (beginning source system)).1 = .error fault ∧
      outcome.errors = log ++ complaint source fault) := by
  have addressable : image.size ≤ Offset.maximum := by
    rw [Offset.maximum]
    omega
  have complete : ∀ start offsets bytes, settings.Starts start → image.Route start 256 offsets bytes →
      (info host system settings source).exitCode = 0 ∧
        Report.read? (info host system settings source).output = some (.along image offsets bytes) := by
    intro start offsets bytes starts route
    rcases info_along offers addressable isIdle starts route with ⟨placed, success, same⟩ | ⟨beyond, _⟩
    · exact ⟨success, same ▸ read?_printed route placed⟩
    · exact absurd (route.placed room) beyond
  rw [run_info accepted named]
  by_cases resolves : ∃ start offsets bytes, settings.Starts start ∧ image.Route start 256 offsets bytes
  · obtain ⟨start, offsets, bytes, starts, route⟩ := resolves
    have success := (complete start offsets bytes starts route).1
    refine ⟨⟨fun _ => ⟨start, offsets, bytes, starts, route⟩, fun _ => success⟩, ?_,
      fun failure => absurd success failure⟩
    exact fun start offsets bytes starts route => (complete start offsets bytes starts route).2
  · obtain ⟨fault, log, described, failed⟩ := info_astray offers addressable isIdle resolves
    rw [failed]
    have failure : ¬ (1 : UInt8) = 0 := by decide
    refine ⟨⟨fun success => absurd success failure, fun route => absurd route resolves⟩, ?_,
      fun _ => ⟨rfl, fault, log, described, rfl⟩⟩
    exact fun start offsets bytes starts route => absurd ⟨start, offsets, bytes, starts, route⟩ resolves

end Run

def shelf : Preloaded := ⟨"disk.raw", .ok (.file .laddered)⟩

/-- The first run finds out that the tables are 4096 bytes apart; the second one asks for sectors that
no disk has. -/
theorem run_faithful_laddered :
    (run Preloaded.host shelf ["-v", "disk.raw"]).exitCode = 0 ∧
    Report.read? (run Preloaded.host shelf ["-v", "disk.raw"]).output = some {
      identity := 0
      bytesPerSector := 4096
      partitions := 2
      blocks := [⟨1, 0x83, "Linux", 8192, 8192, 12288⟩, ⟨2, 0x07, "HPFS/NTFS/exFAT", 8192, 8192, 16384⟩] } ∧
    (run Preloaded.host shelf ["disk.raw", "-b", "777"]).exitCode ≠ 0 ∧
    (run Preloaded.host shelf ["disk.raw", "-b", "777"]).output = banner ∧
    ∃ log, (run Preloaded.host shelf ["disk.raw", "-b", "777"]).errors =
      log ++ Report.lines ["Unable to open: disk.raw: Invalid argument"] := by
  have offers := Preloaded.offers "disk.raw" .laddered
  have room : Image.laddered.size ≤ 2 ^ 63 - 2 ^ 45 := by decide
  have verbose : Arguments.read ["-v", "disk.raw"] = .ok (.info { verbose := true, source := some "disk.raw" }) := rfl
  have odd : Arguments.read ["disk.raw", "-b", "777"] =
    .ok (.info { bytesPerSector := some 777, source := some "disk.raw" }) := rfl
  have ready : shelf = ⟨"disk.raw", .ok (.file .laddered)⟩ := rfl
  have route := Image.route_laddered.deepen (show 1 ≤ 256 by decide)
  obtain ⟨succeeds, reads, _⟩ := run_faithful offers room ready verbose rfl
  refine ⟨succeeds.mpr ⟨.of512, _, _, rfl, route⟩, (reads .of512 _ _ rfl route).trans ?_, ?_⟩
  · decide +kernel
  obtain ⟨fails, _, tells⟩ := run_faithful offers room ready odd rfl
  have unsupported : ¬ ∃ start : SectorSize, start.bytes = 777 := by
    rintro ⟨start, size⟩
    cases start <;> exact absurd size (by decide)
  have failure : (run Preloaded.host shelf ["disk.raw", "-b", "777"]).exitCode ≠ 0 := by
    intro success
    obtain ⟨start, _, _, starts, _⟩ := fails.mp success
    exact unsupported ⟨start, starts⟩
  obtain ⟨silent, fault, log, described, errors⟩ := tells failure
  cases described
  exact ⟨failure, silent, log, errors⟩

end Command
end PartitionTable
