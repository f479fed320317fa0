import PartitionTable.Chain
import PartitionTable.Proofs.Exchange

/-! What the reads of a walk are, and what a chain that was read has to do with them. The
store may answer as it likes: nothing is said here about what it holds. A `Trail` retells a
walk that reached the end of its chain, one table after the other, with the reads that led
from each table to the next. Every walk, also one that fails, stays within a budget. -/
namespace PartitionTable

namespace Table

def extended (table : Table) : List Entry := table.record.used.filter (·.isExtended)

def partitions (table : Table) : List Extent :=
  (table.record.used.filter (!·.isExtended)).map (Extent.ofEntry · table.offset)

/-- Four slots are shared between links and partitions. -/
theorem length_partitions_add_extended_le (table : Table) :
    table.partitions.length + table.extended.length ≤ BootRecord.entryCount := by
  have used : table.record.used.length ≤ table.record.entries.toList.length :=
    List.length_filter_le ..
  have split := List.length_eq_countP_add_countP (·.isExtended) (l := table.record.used)
  have four : table.record.entries.toList.length = 4 := by simp
  simp only [List.countP_eq_length_filter, Bool.not_eq_true, Bool.decide_eq_false] at split
  simp only [partitions, extended, List.length_map, BootRecord.entryCount]
  omega

theorem mem_partitions {table : Table} {extent : Extent} (member : extent ∈ table.partitions) :
    ∃ entry ∈ table.record.entries.toList, entry.isEmpty = false ∧ entry.isExtended = false ∧
      extent = Extent.ofEntry entry table.offset := by
  obtain ⟨entry, kept, rfl⟩ := List.mem_map.mp member
  obtain ⟨used, plain⟩ := List.mem_filter.mp kept
  obtain ⟨present, nonempty⟩ := List.mem_filter.mp used
  exact ⟨entry, present, by simpa using nonempty, by simpa using plain, rfl⟩

end Table

namespace Exchange

def record (exchange : Exchange) : Except Fault BootRecord :=
  match exchange.answer with
  | .ok (.reading reading) =>
    if reading.count = BootRecord.size then BootRecord.decode (reading.buffer BootRecord.size)
    else .error .readFailed
  | .ok _ => .error .readFailed
  | .error fault => .error fault

/-- The exchange is a read of one boot record at a position. -/
structure ReadsRecord (exchange : Exchange) (offset : Int) : Prop where
  nonnegative : 0 ≤ offset
  inRange : offset ≤ Offset.maximum
  call : exchange.call = .read BootRecord.size offset.toNat

def found? (exchange : Exchange) : Option (Int × BootRecord) :=
  match exchange.call, exchange.record with
  | .read _ offset, .ok record => some (offset, record)
  | _, _ => none

theorem found?_ok {exchange : Exchange} {record : BootRecord} (reads : exchange.ReadsRecord offset)
    (outcome : exchange.record = .ok record) :
    exchange.found? = some (offset, record) := by
  simp [found?, reads.call, outcome, Int.toNat_of_nonneg reads.nonnegative]

theorem found?_error {exchange : Exchange} (outcome : exchange.record = .error fault) :
    exchange.found? = none := by
  unfold found?
  rw [outcome]
  cases exchange.call <;> rfl

end Exchange

/-- Not more than a number of reads, each of one boot record. -/
structure Sparing (budget : Nat) (trace : List Exchange) : Prop where
  length : trace.length ≤ budget
  reads : ∀ exchange ∈ trace, ∃ offset, exchange.ReadsRecord offset

namespace Sparing

theorem nil : Sparing budget [] := ⟨Nat.zero_le _, by simp⟩

theorem single (reads : exchange.ReadsRecord offset) : Sparing 1 [exchange] :=
  ⟨Nat.le_refl 1, by simpa using ⟨offset, reads⟩⟩

theorem append (first : Sparing m before) (second : Sparing n after) : Sparing (m + n) (before ++ after) where
  length := by
    rw [List.length_append]
    exact Nat.add_le_add first.length second.length
  reads exchange member := (List.mem_append.mp member).elim (first.reads exchange) (second.reads exchange)

theorem mono (sparing : Sparing m trace) (le : m ≤ n) : Sparing n trace :=
  ⟨Nat.le_trans sparing.length le, sparing.reads⟩

end Sparing

/-- The sector sizes that were tried for a link, up to the one that led to a record. -/
inductive Rungs (table : Int) (sector : UInt32) : List SectorSize → Table → List Exchange → Prop where
  | found : Offset.ofSector table sector size.bytes = .ok offset → exchange.ReadsRecord offset →
      exchange.record = .ok record →
      Rungs table sector (size :: larger) ⟨offset, size, record⟩ [exchange]
  | retried : Offset.ofSector table sector size.bytes = .ok offset → exchange.ReadsRecord offset →
      exchange.record = .error fault → fault.suggestsLargerSectors = true →
      Rungs table sector larger link trace →
      Rungs table sector (size :: larger) link (exchange :: trace)

/-- The tables behind a table, with the reads that led to them. Only the first link may try
larger sectors. -/
inductive Trail : Table → List SectorSize → List Table → List Exchange → Prop where
  | last : table.extended = [] → Trail table larger [] []
  | link : table.extended = [entry] →
      Rungs table.offset entry.firstSector (table.sectorSize :: larger) next before →
      next.offset ≠ 0 → next.offset ≠ table.offset → Trail next [] rest after →
      Trail table larger (next :: rest) (before ++ after)

/-- A chain with the reads of the walk that found it. -/
structure Chain.Trailed (chain : Chain) (start : SectorSize) (limit : Nat) (trace : List Exchange) : Prop where
  origin : chain.first.offset = 0
  sectorSize : chain.first.sectorSize = start
  length : chain.linked.length ≤ limit
  partitions : chain.partitions = chain.tables.flatMap Table.partitions
  trail : ∃ exchange rest, trace = exchange :: rest ∧ exchange.ReadsRecord 0 ∧
    exchange.record = .ok chain.first.record ∧ Trail chain.first start.larger chain.linked rest

namespace Walk

variable (walk : Walk σ)

/-- A record read puts one call, unless it is cancelled or its offset is no position. -/
theorem readRecord_traced (offset : Int) (inRange : offset ≤ Offset.maximum) :
    (walk.readRecord offset).Traced walk.store fun trace result =>
      (trace = [] ∧ ∃ fault, result = .error fault ∧ fault.suggestsLargerSectors = false) ∨
      ∃ exchange, trace = [exchange] ∧ exchange.ReadsRecord offset ∧ exchange.record = result := by
  intro world
  simp only [readRecord, Act.run_bind, run_isCancelled]
  by_cases cancelled : world.signals.raised walk.token = true
  · simp only [cancelled, ↓reduceIte, Act.run_fail]
    exact ⟨[], .rest, .inl ⟨rfl, _, rfl, rfl⟩⟩
  simp only [cancelled, Bool.false_eq_true, ↓reduceIte, BootRecord.readFrom]
  by_cases negative : offset < 0
  · simp only [negative, ↓reduceIte, Act.run_fail]
    exact ⟨[], .rest, .inl ⟨rfl, _, rfl, rfl⟩⟩
  simp only [negative, ↓reduceIte, Act.run_bind, run_note, run_ask]
  let noted := world.note (.readingRecord offset.toNat)
  let exchange := walk.store.exchange (.read BootRecord.size offset.toNat) noted.stores
  have put : Served walk.store world [exchange]
      (noted.absorb (walk.store.reply (.read BootRecord.size offset.toNat) noted.stores)) :=
    .note (.call .rest)
  have reads : exchange.ReadsRecord offset := ⟨by omega, inRange, rfl⟩
  rcases answered : (walk.store.read BootRecord.size offset.toNat noted.stores).result with fault | reading
  · have record : exchange.record = .error fault := by
      simp [Exchange.record, exchange, Store.exchange, Store.reply, Reply.map, answered, Except.map]
    exact ⟨[exchange], put, .inr ⟨exchange, rfl, reads, record⟩⟩
  · have record : exchange.record = if reading.count = BootRecord.size
        then BootRecord.decode (reading.buffer BootRecord.size) else .error .readFailed := by
      simp [Exchange.record, exchange, Store.exchange, Store.reply, Reply.map, answered, Except.map]
    by_cases full : reading.count = BootRecord.size
    · simp only [full, ↓reduceIte] at record ⊢
      exact ⟨[exchange], put, .inr ⟨exchange, rfl, reads, record⟩⟩
    · simp only [full, ↓reduceIte] at record ⊢
      exact ⟨[exchange], put.noted, .inr ⟨exchange, rfl, reads, record⟩⟩

/-- What one attempt at a link amounts to: no position, no read, or one read. -/
inductive Attempt (table : Int) (sector : UInt32) (size : SectorSize) :
    List Exchange → Except Fault (Except (Int × Fault) Table) → Prop where
  | nowhere : Attempt table sector size [] (.error fault)
  | unread : fault.suggestsLargerSectors = false → Attempt table sector size [] (.ok (.error (offset, fault)))
  | found : Offset.ofSector table sector size.bytes = .ok offset → exchange.ReadsRecord offset →
      exchange.record = .ok record → Attempt table sector size [exchange] (.ok (.ok ⟨offset, size, record⟩))
  | missed : Offset.ofSector table sector size.bytes = .ok offset → exchange.ReadsRecord offset →
      exchange.record = .error fault → Attempt table sector size [exchange] (.ok (.error (offset, fault)))

theorem tryLink_traced (table : Int) (sector : UInt32) (size : SectorSize) :
    (walk.tryLink table sector size).Traced walk.store (Attempt table sector size) := by
  rw [tryLink]
  rcases position : Offset.ofSector table sector size.bytes with fault | offset
  · intro world
    exact ⟨[], .rest, .nowhere⟩
  have inRange : offset ≤ Offset.maximum := (Offset.ofSector_eq_ok.mp position).2.1.2
  intro world
  obtain ⟨trace, served, met⟩ := walk.readRecord_traced offset inRange (world.note (.readingLink offset))
  rcases run : (walk.readRecord offset).run (world.note (.readingLink offset)) with ⟨fault | record, later⟩
  all_goals
    rw [run] at served met
    simp only [Act.run_bind, Act.run_ofExcept, run_note, Act.run_attempt, run, Act.run_pure]
    refine ⟨trace, .note served, ?_⟩
  · rcases met with ⟨rfl, _, ⟨⟩, silent⟩ | ⟨exchange, rfl, reads, outcome⟩
    · exact .unread silent
    · exact .missed position reads outcome
  · rcases met with ⟨_, _, ⟨⟩, _⟩ | ⟨exchange, rfl, reads, outcome⟩
    exact .found position reads outcome

/-- A link that is given up costs no further read, and is never found. -/
theorem abandonLink_traced {store : Store σ} (served : Served store world trace later)
    (sparing : Sparing budget trace) (offset : Int) (fault : Fault) (wanted : Table → List Exchange → Prop) :
    ∃ trace, Served store world trace ((abandonLink offset fault : Act _ Table).run later).2 ∧
      Sparing budget trace ∧ ∀ link, ((abandonLink offset fault).run later).1 = .ok link → wanted link trace := by
  rw [abandonLink]
  by_cases withdrawn : fault.isWithdrawal = true
  · rw [if_pos withdrawn]
    exact ⟨trace, served, sparing, nofun⟩
  · rw [if_neg withdrawn]
    exact ⟨trace, served.noted, sparing, nofun⟩

/-- A link is tried with one size after another, each at the price of one read. -/
theorem readLink_traced (table : Int) (sector : UInt32) (size : SectorSize) (larger : List SectorSize) :
    (walk.readLink table sector size larger).Traced walk.store fun trace result =>
      Sparing (larger.length + 1) trace ∧
      ∀ link, result = .ok link → Rungs table sector (size :: larger) link trace := by
  induction larger generalizing size with
  | nil =>
    intro world
    obtain ⟨trace, served, met⟩ := walk.tryLink_traced table sector size world
    rcases run : (walk.tryLink table sector size).run world with ⟨attempt, later⟩
    rw [run] at served met
    simp only [readLink, Act.run_bind, run]
    cases met with
    | nowhere => exact ⟨[], served, .nil, nofun⟩
    | unread => exact abandonLink_traced served .nil _ _ _
    | missed _ reads => exact abandonLink_traced served (.single reads) _ _ _
    | found position reads outcome =>
      refine ⟨_, served, .single reads, ?_⟩
      rintro link ⟨⟩
      exact .found position reads outcome
  | cons next larger ih =>
    intro world
    obtain ⟨trace, served, met⟩ := walk.tryLink_traced table sector size world
    rcases run : (walk.tryLink table sector size).run world with ⟨attempt, later⟩
    rw [run] at served met
    simp only [readLink, Act.run_bind, run]
    have single {exchange : Exchange} {offset : Int} (reads : exchange.ReadsRecord offset) :
        Sparing (larger.length + 2) [exchange] := (Sparing.single reads).mono (Nat.le_add_left ..)
    cases met with
    | nowhere => exact ⟨[], served, .nil, nofun⟩
    | unread silent =>
      simp only [silent, Bool.false_eq_true, ↓reduceIte]
      exact abandonLink_traced served .nil _ _ _
    | found position reads outcome =>
      refine ⟨_, served, single reads, ?_⟩
      rintro link ⟨⟩
      exact .found position reads outcome
    | @missed _ exchange fault position reads outcome =>
      by_cases again : fault.suggestsLargerSectors = true
      · simp only [again, ↓reduceIte, Act.run_bind, run_note]
        obtain ⟨rest, more, sparing, found⟩ := ih next (later.note (.retrying next.bytes))
        refine ⟨[exchange] ++ rest, served.append (.note more), ?_, ?_⟩
        · exact ((Sparing.single reads).append sparing).mono (by rw [List.length_cons]; omega)
        · exact fun link ok => .retried position reads outcome again (found link ok)
      · simp only [again, Bool.false_eq_true, ↓reduceIte]
        exact abandonLink_traced served (single reads) _ _ _

/-- How many reads the rest of a table may cost: none once its link is known. -/
def allowance (larger : List SectorSize) (link : Option Table) : Nat :=
  if link.isNone then larger.length + 1 else 0

/-- What is known of the entries of a table once they were gone through: either none of them
leads on, or the one that does was read. -/
inductive Scanned (table : Table) (larger : List SectorSize) (entries : List Entry) (link : Option Table) :
    Option Table → List Exchange → Prop where
  | plain : entries.filter (·.isExtended) = [] → Scanned table larger entries link link []
  | linked : link = none → entries.filter (·.isExtended) = [entry] →
      Rungs table.offset entry.firstSector (table.sectorSize :: larger) onward trace →
      Scanned table larger entries link (some onward) trace

theorem Scanned.skip (scanned : Scanned table larger rest link next trace) (extended : entry.isExtended = false) :
    Scanned table larger (entry :: rest) link next trace := by
  cases scanned with
  | plain none => exact .plain (by simpa [extended] using none)
  | linked unknown single rungs => exact .linked unknown (by simpa [extended] using single) rungs

theorem scan_traced (table : Table) (larger : List SectorSize) (entries : List Entry) (link : Option Table) :
    (walk.scan table larger entries link).Traced walk.store fun trace result =>
      Sparing (allowance larger link) trace ∧
      ∀ next found, result = .ok (next, found) →
        found = (entries.filter (!·.isExtended)).map (Extent.ofEntry · table.offset) ∧
        Scanned table larger entries link next trace := by
  induction entries generalizing link with
  | nil =>
    refine .pure ⟨.nil, ?_⟩
    rintro _ _ ⟨⟩
    exact ⟨rfl, .plain rfl⟩
  | cons entry rest ih =>
    unfold scan
    by_cases extended : entry.isExtended = true
    · simp only [extended, ↓reduceIte]
      cases link with
      | some known => exact .refuse ⟨.nil, nofun⟩
      | none =>
        refine .bind (walk.readLink_traced table.offset entry.firstSector table.sectorSize larger)
          (fun onward => ih (some onward)) ?_ ?_
        · exact fun trace fault met => ⟨met.1, nofun⟩
        · intro onward before after result ⟨sparing, rungs⟩ ⟨more, rest⟩
          refine ⟨sparing.append more, fun next found ok => ?_⟩
          obtain ⟨partitions, scanned⟩ := rest next found ok
          refine ⟨by simp [extended, partitions], ?_⟩
          cases scanned with
          | plain none =>
            rw [List.append_nil]
            exact .linked rfl (by simp [extended, none]) (rungs onward rfl)
          | linked unknown => cases unknown
    · simp only [extended, Bool.false_eq_true, ↓reduceIte]
      refine .afterNote (.returning (ih link) ?_)
      rintro trace (_ | ⟨next, found⟩) ⟨sparing, holds⟩
      · exact ⟨sparing, nofun⟩
      · refine ⟨sparing, ?_⟩
        rintro _ _ ⟨⟩
        obtain ⟨partitions, scanned⟩ := holds next found rfl
        exact ⟨by simp [extended, partitions], scanned.skip (Bool.eq_false_iff.mpr extended)⟩

inductive Visited (table : Table) (larger : List SectorSize) : Option Table → List Exchange → Prop where
  | last : table.extended = [] → Visited table larger none []
  | link : table.extended = [entry] →
      Rungs table.offset entry.firstSector (table.sectorSize :: larger) onward trace →
      onward.offset ≠ 0 → onward.offset ≠ table.offset → Visited table larger (some onward) trace

theorem visit_traced (table : Table) (larger : List SectorSize) :
    (walk.visit table larger).Traced walk.store fun trace result =>
      Sparing (larger.length + 1) trace ∧
      ∀ next found, result = .ok (next, found) → found = table.partitions ∧ Visited table larger next trace := by
  intro world
  obtain ⟨trace, served, sparing, holds⟩ := walk.scan_traced table larger table.record.used none world
  rcases run : (walk.scan table larger table.record.used none).run world with ⟨fault | ⟨next, found⟩, later⟩
  all_goals
    rw [run] at served holds
    simp only [visit, Act.run_bind, run]
  · exact ⟨trace, served, sparing, nofun⟩
  obtain ⟨rfl, scanned⟩ := holds next found rfl
  cases scanned with
  | plain none =>
    refine ⟨[], served, sparing, ?_⟩
    rintro _ _ ⟨⟩
    exact ⟨rfl, .last none⟩
  | @linked _ onward _ _ single rungs =>
    simp only [checkLink]
    by_cases nowhere : onward.offset = 0 ∨ onward.offset = table.offset
    · simp only [nowhere, ↓reduceIte, run_refuse]
      exact ⟨trace, served.noted, sparing, nofun⟩
    · simp only [nowhere, ↓reduceIte, Act.run_pure]
      refine ⟨trace, served, sparing, ?_⟩
      rintro _ _ ⟨⟩
      obtain ⟨origin, self⟩ := not_or.mp nowhere
      exact ⟨rfl, .link single rungs origin self⟩

theorem follow_traced (allowed : Nat) (table : Table) (larger : List SectorSize) :
    (walk.follow allowed table larger).Traced walk.store fun trace result =>
      Sparing (allowed + (larger.length + 1)) trace ∧
      ∀ linked found, result = .ok (linked, found) →
        linked.length ≤ allowed ∧ found = (table :: linked).flatMap Table.partitions ∧
        Trail table larger linked trace := by
  induction allowed generalizing table larger with
  | zero =>
    intro world
    obtain ⟨trace, served, sparing, holds⟩ := walk.visit_traced table larger world
    rcases run : (walk.visit table larger).run world with ⟨fault | ⟨next, found⟩, later⟩
    all_goals
      rw [run] at served holds
      simp only [follow, Act.run_bind, run]
    · exact ⟨trace, served, sparing.mono (by omega), nofun⟩
    obtain ⟨rfl, visited⟩ := holds next found rfl
    cases visited with
    | last none =>
      refine ⟨[], served, .nil, ?_⟩
      rintro _ _ ⟨⟩
      exact ⟨Nat.le_refl 0, by simp, .last none⟩
    | link => exact ⟨trace, served.noted, sparing.mono (by omega), nofun⟩
  | succ allowed ih =>
    intro world
    obtain ⟨trace, served, sparing, holds⟩ := walk.visit_traced table larger world
    rcases run : (walk.visit table larger).run world with ⟨fault | ⟨next, found⟩, later⟩
    all_goals
      rw [run] at served holds
      simp only [follow, Act.run_bind, run]
    · exact ⟨trace, served, sparing.mono (by omega), nofun⟩
    obtain ⟨rfl, visited⟩ := holds next found rfl
    cases visited with
    | last none =>
      refine ⟨[], served, .nil, ?_⟩
      rintro _ _ ⟨⟩
      exact ⟨Nat.zero_le _, by simp, .last none⟩
    | @link _ onward _ single rungs origin self =>
      obtain ⟨after, more, spared, rest⟩ := ih onward [] later
      rcases next : (walk.follow allowed onward []).run later with ⟨fault | ⟨linked, found⟩, last⟩
      all_goals
        rw [next] at more rest
        simp only [Act.run_bind, next]
        have total := (sparing.append spared).mono
          (show larger.length + 1 + (allowed + 1) ≤ allowed + 1 + (larger.length + 1) by omega)
      · exact ⟨trace ++ after, served.append more, total, nofun⟩
      · refine ⟨trace ++ after, served.append more, total, ?_⟩
        rintro _ _ ⟨⟩
        obtain ⟨short, rfl, trail⟩ := rest linked found rfl
        exact ⟨by simpa using short, by simp, .link single rungs origin self trail⟩

theorem larger_length_le (size : SectorSize) : size.larger.length ≤ 3 := by
  cases size <;> decide

/-- A whole walk: it stays within its budget, and a chain that it returns is what it read. -/
theorem resolve_traced (size : SectorSize) :
    (walk.resolve size).Traced walk.store fun trace result =>
      Sparing (walk.depthLimit + 5) trace ∧
      ∀ chain, result = .ok chain → chain.Trailed size walk.depthLimit trace := by
  intro world
  obtain ⟨before, served, met⟩ := walk.readRecord_traced 0 (by decide) world
  rcases run : (walk.readRecord 0).run world with ⟨fault | record, later⟩
  all_goals
    rw [run] at served met
    simp only [resolve, Act.run_bind, run, run_note]
  · refine ⟨before, served, ?_, by simp⟩
    rcases met with ⟨rfl, _⟩ | ⟨exchange, rfl, reads, _⟩
    · exact .nil
    · exact (Sparing.single reads).mono (by omega)
  rcases met with ⟨_, _, ⟨⟩, _⟩ | ⟨exchange, rfl, reads, outcome⟩
  obtain ⟨after, more, sparing, holds⟩ := walk.follow_traced walk.depthLimit ⟨0, size, record⟩ size.larger
    (later.note (.masterRecord record.identity))
  have total := ((Sparing.single reads).append sparing).mono
    (show 1 + (walk.depthLimit + (size.larger.length + 1)) ≤ walk.depthLimit + 5 by
      have := larger_length_le size; omega)
  rcases rest : (walk.follow walk.depthLimit ⟨0, size, record⟩ size.larger).run
      (later.note (.masterRecord record.identity)) with ⟨fault | ⟨linked, found⟩, last⟩
  all_goals
    rw [rest] at more holds
    have whole := served.append (.note more)
  · exact ⟨[exchange] ++ after, whole, total, by simp⟩
  · refine ⟨[exchange] ++ after, whole.noted, total, ?_⟩
    rintro _ ⟨⟩
    obtain ⟨short, partitions, trail⟩ := holds linked found rfl
    exact ⟨rfl, rfl, short, partitions, exchange, after, rfl, reads, outcome, trail⟩

end Walk
end PartitionTable
