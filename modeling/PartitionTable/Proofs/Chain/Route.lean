import Mathlib.Order.Bounds.Defs
import PartitionTable.Proofs.Chain.Layout
import PartitionTable.Proofs.Chain.Order

/-! The route that the links of an image describe, and the walk along it. A route is a matter
of the bytes alone. Over a store that delivers the image the walk succeeds exactly when there
is one, and it returns what stands along it. -/
namespace PartitionTable

namespace Image

/-- The one link of a table, with so many bytes to a sector, ends at the next table. -/
def Leads (image : Image) (bytes table next : Nat) : Prop :=
  ∃ link, image.links table = [link] ∧ next = table + link.firstSector.toNat * bytes

/-- The tables of an image from the first to the last, with the sector size that connects
them: the smallest on the ladder that ends the first link at a table. -/
structure Route (image : Image) (start : SectorSize) (limit : Nat) (offsets : List Nat) (bytes : Nat) : Prop where
  origin : offsets.head? = some 0
  ascending : offsets.Pairwise (· < ·)
  depth : offsets.length ≤ limit + 1
  tables : ∀ table ∈ offsets, image.HasTable table
  links : offsets.IsChain (image.Leads bytes)
  ends : ∀ table, offsets.getLast? = some table → image.links table = []
  assumed : offsets.length = 1 → bytes = start.bytes.toNat
  smallest : ∀ link, image.links 0 = [link] → IsLeast
    {count | (∃ times, count = start.bytes.toNat * 2 ^ times) ∧ count ≤ 4096 ∧
      image.HasTable (link.firstSector.toNat * count)} bytes

end Image

namespace SectorSize

theorem ladder_ascending (start : SectorSize) :
    start.ladder.Pairwise fun size other => size.bytes.toNat < other.bytes.toNat := by
  cases start <;> decide

theorem bytes_beyond (start : SectorSize) : start.bytes.toNat * 2 ^ start.ladder.length = 8192 := by
  cases start <;> decide

theorem mem_ladder_iff {start : SectorSize} :
    (∃ size ∈ start.ladder, size.bytes.toNat = count) ↔
      (∃ times, count = start.bytes.toNat * 2 ^ times) ∧ count ≤ 4096 := by
  constructor
  · rintro ⟨size, member, rfl⟩
    obtain ⟨times, inside, rfl⟩ := List.getElem_of_mem member
    exact ⟨⟨times, start.bytes_getElem_ladder times inside⟩, bytes_le _⟩
  · rintro ⟨⟨times, rfl⟩, small⟩
    have inside : times < start.ladder.length := by
      by_contra beyond
      have more := Nat.mul_le_mul_left start.bytes.toNat
        (Nat.pow_le_pow_right (show 0 < 2 by decide) (Nat.not_lt.mp beyond))
      rw [start.bytes_beyond] at more
      omega
    exact ⟨start.ladder[times], List.getElem_mem inside, start.bytes_getElem_ladder times inside⟩

/-- Climbing the ladder up to the first size that will do finds the smallest one. -/
theorem find?_ladder_iff {start size : SectorSize} (property : Nat → Prop) [DecidablePred property] :
    start.ladder.find? (fun tried => property tried.bytes.toNat) = some size ↔
      size ∈ start.ladder ∧ IsLeast {count | (∃ times, count = start.bytes.toNat * 2 ^ times) ∧ count ≤ 4096 ∧
        property count} size.bytes.toNat := by
  constructor
  · intro found
    have member := List.mem_of_find?_eq_some found
    have holds : property size.bytes.toNat := by simpa using List.find?_some found
    obtain ⟨doubled, small⟩ := mem_ladder_iff.mp ⟨size, member, rfl⟩
    refine ⟨member, ⟨doubled, small, holds⟩, ?_⟩
    rintro count ⟨doubled, small, other⟩
    obtain ⟨tried, listed, rfl⟩ := mem_ladder_iff.mpr ⟨doubled, small⟩
    obtain ⟨_, before, after, split, missed⟩ := List.find?_eq_some_iff_append.mp found
    have sorted := start.ladder_ascending
    rw [split] at listed sorted
    rcases List.mem_append.mp listed with early | late
    · exact absurd other (by simpa using missed tried early)
    · rcases List.mem_cons.mp late with rfl | late
      · exact Nat.le_refl _
      · exact Nat.le_of_lt ((List.pairwise_cons.mp (List.pairwise_append.mp sorted).2.1).1 tried late)
  · rintro ⟨member, ⟨_, _, holds⟩, least⟩
    obtain ⟨before, after, split⟩ := List.append_of_mem member
    refine List.find?_eq_some_iff_append.mpr ⟨by simpa using holds, before, after, split, fun tried early => ?_⟩
    have listed : tried ∈ start.ladder := split ▸ List.mem_append_left _ early
    have sorted := start.ladder_ascending
    rw [split] at sorted
    have smaller := (List.pairwise_append.mp sorted).2.2 tried early size List.mem_cons_self
    have missed : ¬ property tried.bytes.toNat := by
      intro other
      obtain ⟨doubled, small⟩ := mem_ladder_iff.mp ⟨tried, listed, rfl⟩
      have := least ⟨doubled, small, other⟩
      omega
    simpa using missed

end SectorSize

namespace Image.Route

variable {image : Image} {start : SectorSize} {offsets : List Nat} {limit bytes : Nat}

/-- A route shows with which sector size it was found, and from that size on it is found at once. -/
theorem settles (route : image.Route start limit offsets bytes) :
    ∃ size : SectorSize, size.bytes.toNat = bytes ∧ image.Route size limit offsets bytes := by
  obtain ⟨rest, rfl⟩ := List.head?_eq_some_iff.mp route.origin
  cases rest with
  | nil => exact ⟨start, (route.assumed rfl).symm, route⟩
  | cons next rest =>
    obtain ⟨⟨link, single, _⟩, _⟩ := List.isChain_cons_cons.mp route.links
    obtain ⟨⟨doubled, limit, _⟩, _⟩ := route.smallest link single
    obtain ⟨size, _, rfl⟩ := SectorSize.mem_ladder_iff.mpr ⟨doubled, limit⟩
    refine ⟨size, rfl, { route with assumed := nofun, smallest := fun link single => ?_ }⟩
    obtain ⟨_, small, there⟩ := (route.smallest link single).1
    refine ⟨⟨⟨0, by rw [Nat.pow_zero, Nat.mul_one]⟩, small, there⟩, ?_⟩
    rintro _ ⟨⟨times, rfl⟩, _, _⟩
    exact Nat.le_mul_of_pos_right _ (Nat.two_pow_pos times)

theorem deepen (route : image.Route start limit offsets bytes) (deeper : limit ≤ larger) :
    image.Route start larger offsets bytes :=
  { route with depth := Nat.le_trans route.depth (Nat.succ_le_succ deeper) }

end Image.Route

/-- The records of a trace are those of the image. -/
def Exchange.Delivered (image : Image) (trace : List Exchange) : Prop :=
  ∀ exchange ∈ trace, ∀ offset : Nat, exchange.ReadsRecord offset → exchange.record = image.recordAt offset

namespace Exchange

theorem Delivered.append_iff :
    Delivered image (before ++ after) ↔ Delivered image before ∧ Delivered image after := by
  simp only [Delivered, List.mem_append]
  constructor
  · intro both
    exact ⟨fun exchange early => both exchange (.inl early), fun exchange late => both exchange (.inr late)⟩
  · rintro ⟨first, second⟩ exchange (early | late)
    · exact first exchange early
    · exact second exchange late

theorem Delivered.of_cons (delivered : Delivered image (exchange :: rest)) :
    (∀ offset : Nat, exchange.ReadsRecord offset → exchange.record = image.recordAt offset) ∧
      Delivered image rest :=
  ⟨delivered exchange List.mem_cons_self, fun other member => delivered other (List.mem_cons_of_mem _ member)⟩

end Exchange

/-- Whatever a store does otherwise, a boot record that is read of it is that of the image. -/
structure Store.Records (store : Store σ) (image : Image) (token : Token) (steady : σ → Prop) : Prop where
  answers : ∀ s, steady s → ∀ offset ≤ Offset.maximum,
    (store.exchange (.read BootRecord.size offset) s).record = image.recordAt offset
  stays : ∀ s, steady s → ∀ offset ≤ Offset.maximum, steady (store.read BootRecord.size offset s).state
  quiet : ∀ s, steady s → ∀ offset ≤ Offset.maximum, .cancel token ∉ (store.read BootRecord.size offset s).signals

theorem Store.record_ofBytes {store : Store σ} {image : Image}
    (given : (store.read BootRecord.size offset s).result = .ok (.ofBytes (image.slice offset BootRecord.size))) :
    (store.exchange (.read BootRecord.size offset) s).record = image.recordAt offset := by
  simp only [Exchange.record, Store.exchange, Store.reply, Reply.map, given, Except.map, Reading.count_ofBytes,
    Image.recordAt]
  by_cases full : (image.slice offset BootRecord.size).length = BootRecord.size
  · simp only [full, ↓reduceIte, Reading.buffer_ofBytes full]
  · simp only [full, ↓reduceIte]

/-- A read that was refused went on behind the end of the image, and there is no record. -/
theorem Store.record_refused {store : Store σ} {image : Image} (beyond : image.size < offset + BootRecord.size)
    (refused : (store.read BootRecord.size offset s).result = .error .readFailed) :
    (store.exchange (.read BootRecord.size offset) s).record = image.recordAt offset := by
  have short : (image.slice offset BootRecord.size).length ≠ BootRecord.size := by
    simp only [Image.length_slice, BootRecord.size] at beyond ⊢
    omega
  simp only [Exchange.record, Store.exchange, Store.reply, Reply.map, refused, Except.map, Image.recordAt, short,
    ↓reduceIte]

theorem Store.Delivers.records {store : Store σ} (delivers : store.Delivers image token steady) :
    store.Records image token steady where
  answers s held offset near := by
    rcases delivers.answers s held BootRecord.size offset near with given | ⟨beyond, refused⟩
    · exact record_ofBytes given
    · exact record_refused beyond refused
  stays s held := delivers.stays s held BootRecord.size
  quiet s held := delivers.quiet s held BootRecord.size

theorem Served.delivered {store : Store σ} (records : store.Records image token steady)
    (served : Served store world trace last) (ready : world.Ready token steady)
    (reads : ∀ exchange ∈ trace, ∃ offset, exchange.ReadsRecord offset) : Exchange.Delivered image trace := by
  induction served with
  | rest => simp [Exchange.Delivered]
  | note _ ih => exact ih ready.note reads
  | @call world trace last call _ ih =>
    obtain ⟨position, first⟩ := reads _ List.mem_cons_self
    obtain ⟨nonnegative, inRange, same⟩ := first
    obtain ⟨place, rfl⟩ := Int.eq_ofNat_of_zero_le nonnegative
    have inRange : place ≤ Offset.maximum := Int.ofNat_le.mp inRange
    have same : call = .read BootRecord.size place := same
    subst same
    have rest := ih ⟨records.stays _ ready.steady place inRange,
      Signals.lowered_foldl (records.quiet _ ready.steady place inRange) ready.lowered⟩
      fun exchange member => reads exchange (List.mem_cons_of_mem _ member)
    intro exchange member offset asked
    rcases List.mem_cons.mp member with rfl | member
    · have equal : place = offset := (Call.read.inj asked.call).2
      exact equal ▸ records.answers _ ready.steady place inRange
    · exact rest exchange member offset asked

theorem Offset.ofSector_natCast {table : Nat} (position : ofSector table sector bytes = .ok offset) :
    offset = (table + sector.toNat * bytes.toNat : Nat) := by
  rw [(ofSector_eq_ok.mp position).2.2]
  push_cast
  rfl

theorem Rungs.shows (rungs : Rungs (table : Nat) sector sizes link trace)
    (delivered : Exchange.Delivered image trace) :
    ∃ next, link = image.tableAt link.sectorSize next ∧ image.HasTable next ∧
      next = table + sector.toNat * link.sectorSize.bytes.toNat ∧
      sizes.find? (fun tried => image.HasTable (table + sector.toNat * tried.bytes.toNat)) =
        some link.sectorSize := by
  generalize origin : (table : Int) = place at rungs
  induction rungs with
  | found position reads outcome =>
    subst origin
    rw [Offset.ofSector_natCast position] at reads
    have same := delivered _ List.mem_cons_self _ reads
    rw [outcome] at same
    have present := Image.hasTable_iff.mpr ⟨_, same.symm⟩
    rw [Image.recordAt_ok present] at same
    cases same
    refine ⟨_, ?_, present, rfl, by simp [present]⟩
    rw [Offset.ofSector_natCast position]
    rfl
  | retried position reads outcome _ _ ih =>
    subst origin
    obtain ⟨first, rest⟩ := delivered.of_cons
    obtain ⟨next, place, present, offset, found⟩ := ih rest
    rw [Offset.ofSector_natCast position] at reads
    have same := first _ reads
    have missing : ¬ image.HasTable _ := fun present => by
      rw [outcome, Image.recordAt_ok present] at same
      cases same
    exact ⟨next, place, present, offset, by simpa [missing] using found⟩

/-- What a trail on an image shows of it: its tables are there, each leads to the next, and the
last one leads nowhere. -/
structure Image.Shows (image : Image) (bytes table : Nat) (offsets : List Nat) : Prop where
  tables : ∀ next ∈ offsets, image.HasTable next
  links : (table :: offsets).IsChain (image.Leads bytes)
  ends : image.links (offsets.getLast?.getD table) = []

theorem Trail.shows {image : Image} (trail : Trail (image.tableAt size table) larger linked trace)
    (delivered : Exchange.Delivered image trace) (present : image.HasTable table)
    (same : ∀ next ∈ linked, next.sectorSize = final) :
    ∃ offsets, linked = offsets.map (image.tableAt final) ∧ image.Shows final.bytes.toNat table offsets := by
  generalize place : image.tableAt size table = here at trail
  induction trail generalizing size table with
  | last none =>
    subst place
    refine ⟨[], rfl, by simp, .singleton _, ?_⟩
    rw [List.getLast?_nil, Option.getD_none, image.links_eq present size, none, List.map_nil]
  | link single rungs _ _ _ ih =>
    subst place
    obtain ⟨before, after⟩ := Exchange.Delivered.append_iff.mp delivered
    obtain ⟨next, spot, there, offset, _⟩ := rungs.shows before
    rw [same _ List.mem_cons_self] at spot offset
    have others := fun other member => same other (List.mem_cons_of_mem _ member)
    obtain ⟨offsets, rfl, shows⟩ := ih after there others spot.symm
    refine ⟨next :: offsets, by rw [spot]; rfl, ?_,
      .cons_cons ⟨Extent.ofEntry _ table, ?_, offset⟩ shows.links, ?_⟩
    · intro other member
      rcases List.mem_cons.mp member with rfl | member
      · exact there
      · exact shows.tables other member
    · rw [image.links_eq present size, single]
      rfl
    · rw [List.getLast?_cons, Option.getD_some]
      exact shows.ends

/-- The size that the first link was followed with is the smallest that will do. -/
theorem Trail.smallest {image : Image} {link : Extent}
    (trail : Trail (image.tableAt start 0) start.larger linked trace) (delivered : Exchange.Delivered image trace)
    (present : image.HasTable 0) (same : ∀ next ∈ linked, next.sectorSize = final) (single : image.links 0 = [link]) :
    IsLeast {count | (∃ times, count = start.bytes.toNat * 2 ^ times) ∧ count ≤ 4096 ∧
      image.HasTable (link.firstSector.toNat * count)} final.bytes.toNat := by
  have entries := image.links_eq present start
  cases trail with
  | last none =>
    rw [none, single] at entries
    cases entries
  | link one rungs _ _ _ =>
    rw [one, single] at entries
    cases entries
    obtain ⟨before, _⟩ := Exchange.Delivered.append_iff.mp delivered
    have searched : Rungs (0 : Nat) _ _ _ _ := rungs
    obtain ⟨_, _, _, _, found⟩ := searched.shows before
    rw [same _ List.mem_cons_self] at found
    simp only [Nat.zero_add] at found
    exact (SectorSize.find?_ladder_iff _).mp found |>.2

/-- A chain that was read from an image stands along a route of it. -/
theorem Chain.Trailed.route (trailed : Chain.Trailed chain start limit trace)
    (delivered : Exchange.Delivered image trace) :
    ∃ offsets, image.Route start limit offsets chain.sectorSize.bytes.toNat := by
  obtain ⟨exchange, rest, rfl, reads, outcome, trail⟩ := trailed.trail
  obtain ⟨master, delivered⟩ := delivered.of_cons
  have given := master 0 reads
  rw [outcome] at given
  have present := Image.hasTable_iff.mpr ⟨_, given.symm⟩
  rw [Image.recordAt_ok present] at given
  have first : image.tableAt start 0 = chain.first := by
    rw [Image.tableAt, ← Except.ok.inj given, ← trailed.sectorSize]
    exact congrArg (Table.mk · _ _) trailed.origin.symm
  rw [← first] at trail
  obtain ⟨offsets, linked, shows⟩ := trail.shows delivered present trailed.sectorSize_linked
  have places : chain.tables.map (·.offset) = (0 :: offsets).map Nat.cast := by
    rw [Chain.tables, linked, List.map_cons, trailed.origin, List.map_map]
    rfl
  have ascending := trailed.ascending.1
  rw [places, List.pairwise_map] at ascending
  refine ⟨0 :: offsets, rfl, ascending.imp Int.ofNat_lt.mp, ?_, ?_, shows.links, ?_, ?_, ?_⟩
  · have short := trailed.length
    rw [linked, List.length_map] at short
    exact Nat.succ_le_succ short
  · intro table member
    rcases List.mem_cons.mp member with rfl | member
    · exact present
    · exact shows.tables table member
  · intro table last
    rw [List.getLast?_cons, Option.some.injEq] at last
    exact last ▸ shows.ends
  · intro alone
    have none : chain.linked = [] := by
      rw [linked, List.eq_nil_of_length_eq_zero (Nat.succ.inj alone), List.map_nil]
    rw [Chain.sectorSize, none, List.getLast?_nil, Option.getD_none, trailed.sectorSize]
  · exact fun link single => trail.smallest delivered present trailed.sectorSize_linked single

end PartitionTable
