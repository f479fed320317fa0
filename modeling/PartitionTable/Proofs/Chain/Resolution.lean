import PartitionTable.Proofs.Chain.InStep
import PartitionTable.Proofs.Chain.Route

/-! The walk along a route. Where the image has a route the walk finds it, table by table, and
nothing on it can stop the walk. Together with what a trail shows this decides, for every
image, whether a walk succeeds and what it then returns. -/
namespace PartitionTable

theorem Offset.ofSector_fits {table : Nat} {sector : UInt32} {size : SectorSize}
    (fits : Fits (table + sector.toNat * size.bytes.toNat : Nat)) :
    ofSector table sector size.bytes = .ok (table + sector.toNat * size.bytes.toNat : Nat) := by
  refine ofSector_eq_ok.mpr ⟨fits_distance sector size, fits, ?_⟩
  push_cast
  rfl

namespace Walk

variable {walk : Walk σ} {image : Image} {steady : σ → Prop} {table : Nat} {sector : UInt32} {size : SectorSize}

/-- With the flag down a record is found as the image has it. -/
theorem readRecord_records (records : walk.store.Records image walk.token steady) (place : offset ≤ Offset.maximum) :
    (walk.readRecord (offset : Nat)).Yields (World.Ready · walk.token steady) (image.recordAt offset) := by
  intro world ready
  obtain ⟨notices, _, run⟩ := walk.readRecord_lowered ready.lowered (Int.natCast_nonneg offset)
  rw [run]
  exact ⟨records.answers _ ready.steady offset place, records.stays _ ready.steady offset place,
    Signals.lowered_foldl (records.quiet _ ready.steady offset place) ready.lowered⟩

theorem tryLink_yields (records : walk.store.Records image walk.token steady)
    (fits : Offset.Fits (table + sector.toNat * size.bytes.toNat : Nat)) :
    (walk.tryLink table sector size).Yields (World.Ready · walk.token steady)
      (.ok (match image.recordAt (table + sector.toNat * size.bytes.toNat) with
        | .ok record => .ok ⟨(table + sector.toNat * size.bytes.toNat : Nat), size, record⟩
        | .error fault => .error ((table + sector.toNat * size.bytes.toNat : Nat), fault))) := by
  rw [tryLink, Offset.ofSector_fits fits]
  apply Act.Yields.bind (.pure _)
  apply Act.Yields.bind (.note _)
  apply Act.Yields.bind (readRecord_records records (Int.ofNat_le.mp fits.2)).attempt
  rcases image.recordAt (table + sector.toNat * size.bytes.toNat) with fault | record
  · exact .pure _
  · exact .pure _

/-- The first size on the ladder that ends a link at a table is the one that is used. -/
theorem readLink_yields (records : walk.store.Records image walk.token steady) (larger : List SectorSize)
    (fits : ∀ tried ∈ size :: larger, Offset.Fits (table + sector.toNat * tried.bytes.toNat : Nat))
    (found : (size :: larger).find? (fun tried => image.HasTable (table + sector.toNat * tried.bytes.toNat)) =
      some right) :
    (walk.readLink table sector size larger).Yields (World.Ready · walk.token steady)
      (.ok (image.tableAt right (table + sector.toNat * right.bytes.toNat))) := by
  induction larger generalizing size with
  | nil =>
    have attempt := tryLink_yields records (fits size List.mem_cons_self)
    by_cases present : image.HasTable (table + sector.toNat * size.bytes.toNat)
    · rw [List.find?_cons_of_pos (by simpa using present)] at found
      cases found
      rw [Image.recordAt_ok present] at attempt
      exact .bind attempt (.pure _)
    · rw [List.find?_cons_of_neg (by simpa using present)] at found
      cases found
  | cons next larger ih =>
    have attempt := tryLink_yields records (fits size List.mem_cons_self)
    by_cases present : image.HasTable (table + sector.toNat * size.bytes.toNat)
    · rw [List.find?_cons_of_pos (by simpa using present)] at found
      cases found
      rw [Image.recordAt_ok present] at attempt
      exact .bind attempt (.pure _)
    · rw [List.find?_cons_of_neg (by simpa using present)] at found
      obtain ⟨fault, missed, again⟩ := Image.recordAt_error present
      rw [missed] at attempt
      refine .bind attempt ?_
      simp only [again, ↓reduceIte]
      exact .bind (.note _) (ih (fun tried member => fits tried (List.mem_cons_of_mem _ member)) found)

/-- Without a link among them entries give their partitions, whatever was known before. -/
theorem scan_yields_none (walk : Walk σ) (table : Table) (larger : List SectorSize) (entries : List Entry)
    (link : Option Table) (plain : entries.filter (·.isExtended) = []) :
    (walk.scan table larger entries link).Yields (World.Ready · walk.token steady)
      (.ok (link, (entries.filter (!·.isExtended)).map (Extent.ofEntry · table.offset))) := by
  induction entries with
  | nil => exact .pure _
  | cons entry rest ih =>
    by_cases extended : entry.isExtended = true
    · rw [List.filter_cons_of_pos extended] at plain
      cases plain
    · rw [List.filter_cons_of_neg extended] at plain
      rw [List.filter_cons_of_pos (by simpa using extended)]
      unfold scan
      simp only [extended, Bool.false_eq_true, ↓reduceIte]
      apply Act.Yields.bind (.note _)
      exact .bind (ih plain) (.pure _)

theorem scan_yields (walk : Walk σ) (table : Table) (larger : List SectorSize) (entries : List Entry)
    (single : entries.filter (·.isExtended) = [entry])
    (read : (walk.readLink table.offset entry.firstSector table.sectorSize larger).Yields
      (World.Ready · walk.token steady) (.ok link)) :
    (walk.scan table larger entries none).Yields (World.Ready · walk.token steady)
      (.ok (some link, (entries.filter (!·.isExtended)).map (Extent.ofEntry · table.offset))) := by
  induction entries with
  | nil => cases single
  | cons first rest ih =>
    by_cases extended : first.isExtended = true
    · rw [List.filter_cons_of_pos extended] at single
      obtain ⟨rfl, plain⟩ := List.cons.inj single
      rw [List.filter_cons_of_neg (by simpa using extended)]
      unfold scan
      simp only [extended, ↓reduceIte]
      exact .bind read (walk.scan_yields_none table larger rest (some link) plain)
    · rw [List.filter_cons_of_neg extended] at single
      rw [List.filter_cons_of_pos (by simpa using extended)]
      unfold scan
      simp only [extended, Bool.false_eq_true, ↓reduceIte]
      apply Act.Yields.bind (.note _)
      exact .bind (ih single) (.pure _)

theorem visit_yields_last (walk : Walk σ) (larger : List SectorSize) {table : Table} (last : table.extended = []) :
    (walk.visit table larger).Yields (World.Ready · walk.token steady) (.ok (none, table.partitions)) :=
  .bind (walk.scan_yields_none table larger table.record.used none last) (.bind (.pure _) (.pure _))

theorem visit_yields_link {table link : Table} (single : table.extended = [entry])
    (read : (walk.readLink table.offset entry.firstSector table.sectorSize larger).Yields
      (World.Ready · walk.token steady) (.ok link))
    (forward : 0 ≤ table.offset ∧ table.offset < link.offset) :
    (walk.visit table larger).Yields (World.Ready · walk.token steady) (.ok (some link, table.partitions)) := by
  have onward : ¬ (link.offset = 0 ∨ link.offset = table.offset) := by omega
  have check : (checkLink table (some link)).Yields (World.Ready · walk.token steady) (.ok ()) := by
    rw [checkLink, if_neg onward]
    exact .pure ()
  apply Act.Yields.bind (walk.scan_yields table larger table.record.used single read)
  exact .bind check (.pure _)

theorem follow_yields_last (walk : Walk σ) (allowed : Nat) (larger : List SectorSize)
    (present : image.HasTable table) (last : image.links table = []) :
    (walk.follow allowed (image.tableAt size table) larger).Yields (World.Ready · walk.token steady)
      (.ok ([], image.partitions table)) := by
  rw [image.links_eq present size, List.map_eq_nil_iff] at last
  rw [image.partitions_eq present size]
  cases allowed with
  | zero => exact .bind (walk.visit_yields_last larger last) (.pure _)
  | succ allowed => exact .bind (walk.visit_yields_last larger last) (.pure _)

theorem follow_yields_link (records : walk.store.Records image walk.token steady) (larger : List SectorSize)
    {link : Extent} (present : image.HasTable table) (single : image.links table = [link])
    (fits : ∀ tried ∈ size :: larger, Offset.Fits (table + link.firstSector.toNat * tried.bytes.toNat : Nat))
    (found : (size :: larger).find? (fun tried =>
      image.HasTable (table + link.firstSector.toNat * tried.bytes.toNat)) = some right)
    (next : onward = table + link.firstSector.toNat * right.bytes.toNat) (forward : table < onward)
    (rest : (walk.follow allowed (image.tableAt right onward) []).Yields (World.Ready · walk.token steady)
      (.ok (linked, more))) :
    (walk.follow (allowed + 1) (image.tableAt size table) larger).Yields (World.Ready · walk.token steady)
      (.ok (image.tableAt right onward :: linked, image.partitions table ++ more)) := by
  subst next
  rw [image.links_eq present size] at single
  obtain ⟨entry, one, rfl⟩ := List.map_eq_singleton_iff.mp single
  rw [image.partitions_eq present size]
  have read := readLink_yields records larger fits found
  apply Act.Yields.bind (visit_yields_link one read ⟨Int.natCast_nonneg _, Int.ofNat_lt.mpr forward⟩)
  exact .bind rest (.pure _)

theorem follow_yields (records : walk.store.Records image walk.token steady)
    (small : image.size ≤ Offset.maximum) (offsets : List Nat) (present : image.HasTable table)
    (shows : image.Shows size.bytes.toNat table offsets)
    (ascending : (table :: offsets).Pairwise (· < ·)) (short : offsets.length ≤ allowed) :
    (walk.follow allowed (image.tableAt size table) []).Yields (World.Ready · walk.token steady)
      (.ok (offsets.map (image.tableAt size), (table :: offsets).flatMap image.partitions)) := by
  induction offsets generalizing table allowed with
  | nil => simpa using walk.follow_yields_last allowed [] present shows.ends
  | cons next offsets ih =>
    obtain ⟨allowed, rfl⟩ : ∃ fewer, allowed = fewer + 1 :=
      ⟨allowed - 1, by rw [List.length_cons] at short; omega⟩
    obtain ⟨⟨link, single, onward⟩, links⟩ := List.isChain_cons_cons.mp shows.links
    have there := shows.tables next List.mem_cons_self
    have fits : Offset.Fits next := ⟨by omega, by have := there.1; omega⟩
    have rest : image.Shows size.bytes.toNat next offsets := by
      refine ⟨fun other member => shows.tables other (List.mem_cons_of_mem _ member), links, ?_⟩
      have ends := shows.ends
      rwa [List.getLast?_cons, Option.getD_some] at ends
    obtain ⟨first, ascending⟩ := List.pairwise_cons.mp ascending
    refine follow_yields_link records [] present single ?_ ?_ onward (first next List.mem_cons_self)
      (ih there rest ascending (Nat.le_of_succ_le_succ short))
    · intro tried member
      rw [List.mem_singleton.mp member, ← onward]
      exact fits
    · simpa [← onward] using there

/-- From the first table on the walk goes along the route, with the size that the route has. -/
theorem follow_yields_route (records : walk.store.Records image walk.token steady)
    (small : image.size ≤ Offset.maximum) (route : image.Route start walk.depthLimit (0 :: rest) bytes) :
    ∃ size : SectorSize, size.bytes.toNat = bytes ∧ (rest = [] → size = start) ∧
      (walk.follow walk.depthLimit (image.tableAt start 0) start.larger).Yields (World.Ready · walk.token steady)
        (.ok (rest.map (image.tableAt size), (0 :: rest).flatMap image.partitions)) := by
  have present := route.tables 0 List.mem_cons_self
  cases rest with
  | nil =>
    refine ⟨start, (route.assumed rfl).symm, fun _ => rfl, ?_⟩
    simpa using walk.follow_yields_last walk.depthLimit start.larger present (route.ends 0 rfl)
  | cons next rest =>
    obtain ⟨⟨link, single, onward⟩, links⟩ := List.isChain_cons_cons.mp route.links
    obtain ⟨⟨doubled, limit, _⟩, _⟩ := route.smallest link single
    obtain ⟨size, member, rfl⟩ := SectorSize.mem_ladder_iff.mpr ⟨doubled, limit⟩
    refine ⟨size, rfl, nofun, ?_⟩
    obtain ⟨allowed, limit⟩ : ∃ allowed, walk.depthLimit = allowed + 1 :=
      ⟨walk.depthLimit - 1, by have := route.depth; simp only [List.length_cons] at this; omega⟩
    obtain ⟨first, ascending⟩ := List.pairwise_cons.mp route.ascending
    have shows : image.Shows size.bytes.toNat next rest := by
      refine ⟨fun other member => route.tables other (.tail _ (.tail _ member)), links, ?_⟩
      exact route.ends _ (by rw [List.getLast?_cons_cons, List.getLast?_cons])
    have short : rest.length ≤ allowed := by
      have := route.depth
      simp only [List.length_cons] at this
      omega
    have found := (SectorSize.find?_ladder_iff _).mpr ⟨member, route.smallest link single⟩
    rw [limit, List.flatMap_cons]
    refine follow_yields_link records start.larger present single ?_ ?_ onward (first next List.mem_cons_self)
      (follow_yields records small rest (route.tables next (.tail _ (.head _))) shows ascending short)
    · intro tried _
      have := Offset.fits_distance link.firstSector tried
      simpa using this
    · simp only [Nat.zero_add]
      exact found

theorem resolve_yields (records : walk.store.Records image walk.token steady)
    (small : image.size ≤ Offset.maximum) (route : image.Route start walk.depthLimit (0 :: rest) bytes) :
    ∃ size : SectorSize, size.bytes.toNat = bytes ∧ (rest = [] → size = start) ∧
      (walk.resolve start).Yields (World.Ready · walk.token steady)
        (.ok ⟨image.tableAt start 0, rest.map (image.tableAt size), (0 :: rest).flatMap image.partitions⟩) := by
  have master := readRecord_records records (Nat.zero_le Offset.maximum)
  rw [Image.recordAt_ok (route.tables 0 List.mem_cons_self)] at master
  obtain ⟨size, same, alone, behind⟩ := follow_yields_route records small route
  refine ⟨size, same, alone, ?_⟩
  apply Act.Yields.bind master
  apply Act.Yields.bind (.note _)
  apply Act.Yields.bind behind
  exact .bind (.note _) (.pure _)

/-- Over a store with the records of an image, a walk succeeds exactly along a route. -/
theorem resolve_succeeds_iff (records : walk.store.Records image walk.token steady)
    (small : image.size ≤ Offset.maximum) (ready : world.Ready walk.token steady) :
    (∃ chain, ((walk.resolve start).run world).1 = .ok chain) ↔
      ∃ offsets bytes, image.Route start walk.depthLimit offsets bytes := by
  constructor
  · rintro ⟨chain, ok⟩
    obtain ⟨trace, served, sparing, trailed⟩ := walk.resolve_traced start world
    obtain ⟨offsets, route⟩ := (trailed chain ok).route (served.delivered records ready sparing.reads)
    exact ⟨offsets, _, route⟩
  · rintro ⟨offsets, bytes, route⟩
    obtain ⟨rest, rfl⟩ := List.head?_eq_some_iff.mp route.origin
    obtain ⟨size, _, _, yields⟩ := resolve_yields records small route
    exact ⟨_, yields.result_eq ready⟩

/-- What the walk returns is told by the route. -/
theorem resolve_along_route (records : walk.store.Records image walk.token steady)
    (small : image.size ≤ Offset.maximum) (ready : world.Ready walk.token steady)
    (route : image.Route start walk.depthLimit offsets bytes)
    (ok : ((walk.resolve start).run world).1 = .ok chain) :
    chain.partitions = offsets.flatMap image.partitions ∧ chain.sectorSize.bytes.toNat = bytes ∧
      (chain.sizeIsKnown = true ↔ 1 < offsets.length) ∧ chain.identity.toNat = image.word 440 := by
  obtain ⟨rest, rfl⟩ := List.head?_eq_some_iff.mp route.origin
  obtain ⟨size, rfl, alone, yields⟩ := resolve_yields records small route
  cases (yields.result_eq ready).symm.trans ok
  have identity := image.identity_eq (route.tables 0 List.mem_cons_self) start
  rw [Nat.zero_add] at identity
  refine ⟨rfl, ?_, ?_, identity⟩
  · cases rest with
    | nil => rw [alone rfl]; rfl
    | cons next rest =>
      rw [Chain.sectorSize, List.getLast?_map, List.getLast?_cons]
      rfl
  · cases rest with
    | nil => simp [Chain.sizeIsKnown]
    | cons next rest => simp [Chain.sizeIsKnown]

theorem resolve_ok_iff (delivers : walk.store.Delivers image walk.token steady)
    (small : image.size ≤ Offset.maximum) (ready : world.Ready walk.token steady) :
    (∃ chain, ((walk.resolve start).run world).1 = .ok chain) ↔
      ∃ offsets bytes, image.Route start walk.depthLimit offsets bytes :=
  resolve_succeeds_iff delivers.records small ready

theorem resolve_ok_of_route (delivers : walk.store.Delivers image walk.token steady)
    (small : image.size ≤ Offset.maximum) (ready : world.Ready walk.token steady)
    (route : image.Route start walk.depthLimit offsets bytes)
    (ok : ((walk.resolve start).run world).1 = .ok chain) :
    chain.partitions = offsets.flatMap image.partitions ∧ chain.sectorSize.bytes.toNat = bytes ∧
      (chain.sizeIsKnown = true ↔ 1 < offsets.length) ∧ chain.identity.toNat = image.word 440 :=
  resolve_along_route delivers.records small ready route ok

end Walk

/-- The walk over an image in memory, for any image: it returns a chain exactly when there is a
route, and the chain is what stands along it. No bytes in memory reach beyond the last position. -/
theorem Memory.resolve_route (image : Image) (start : SectorSize) (limit : Nat) (token : Token)
    (world : World Memory) (addressable : image.size ≤ Offset.maximum) (opened : world.stores = ⟨image, true⟩)
    (lowered : world.signals.raised token = false) :
    ((∃ chain, ((Walk.resolve ⟨store, token, limit⟩ start).run world).1 = .ok chain) ↔
      ∃ offsets bytes, image.Route start limit offsets bytes) ∧
    ∀ chain offsets bytes, ((Walk.resolve ⟨store, token, limit⟩ start).run world).1 = .ok chain →
      image.Route start limit offsets bytes →
        chain.partitions = offsets.flatMap image.partitions ∧ chain.sectorSize.bytes.toNat = bytes ∧
        (chain.sizeIsKnown = true ↔ 1 < offsets.length) ∧ chain.identity.toNat = image.word 440 := by
  have delivers := Memory.delivers image token
  have ready : world.Ready token (· = ⟨image, true⟩) := ⟨opened, lowered⟩
  constructor
  · exact Walk.resolve_ok_iff delivers addressable ready
  · intro chain offsets bytes ok route
    exact Walk.resolve_ok_of_route delivers addressable ready route ok

/-- Two tables that only sectors of 4096 bytes bring together, each with a partition. -/
def Image.laddered : Image where
  size := 8192
  byte offset := ([(450, 0x05), (454, 1), (466, 0x83), (470, 2), (474, 3), (510, 0x55), (511, 0xaa),
    (4546, 0x07), (4550, 1), (4554, 4), (4606, 0x55), (4607, 0xaa)].lookup offset).getD 0

theorem Image.links_laddered : laddered.links 0 = [laddered.slot 0 0] := by decide

theorem Image.route_laddered : laddered.Route .of512 1 [0, 4096] SectorSize.of4096.bytes.toNat where
  origin := rfl
  ascending := by decide
  depth := by decide
  tables := by decide
  links := .cons_cons ⟨_, links_laddered, by decide⟩ (.singleton _)
  ends := by
    rintro table ⟨⟩
    decide
  assumed := by decide
  smallest := by
    intro link single
    cases links_laddered.symm.trans single
    let property count := laddered.HasTable ((laddered.slot 0 0).firstSector.toNat * count)
    have found : SectorSize.of512.ladder.find? (fun tried => laddered.HasTable
        ((laddered.slot 0 0).firstSector.toNat * tried.bytes.toNat)) = some .of4096 := by decide
    exact ((SectorSize.find?_ladder_iff property).mp found).2

theorem Memory.resolve_route_laddered :
    ∃ chain, ((Walk.resolve ⟨store, ⟨0⟩, 1⟩ .of512).run (.start ⟨.laddered, true⟩)).1 = .ok chain ∧
      chain.partitions = [⟨⟨0x83⟩, 0, 2, 3⟩, ⟨⟨0x07⟩, 4096, 1, 4⟩] ∧ chain.sectorSize.bytes.toNat = 4096 ∧
      chain.sizeIsKnown = true ∧ chain.identity.toNat = 0 := by
  have addressable : Image.laddered.size ≤ Offset.maximum := by simp [Image.laddered, Offset.maximum]
  obtain ⟨succeeds, tells⟩ :=
    Memory.resolve_route .laddered .of512 1 ⟨0⟩ (.start ⟨.laddered, true⟩) addressable rfl rfl
  obtain ⟨chain, ok⟩ := succeeds.mpr ⟨_, _, Image.route_laddered⟩
  obtain ⟨partitions, bytes, known, identity⟩ := tells chain _ _ ok Image.route_laddered
  refine ⟨chain, ok, ?_, bytes, known.mpr (by decide), ?_⟩
  · rw [partitions]
    decide
  · rw [identity]
    decide

end PartitionTable
