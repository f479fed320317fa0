import PartitionTable.Proofs.Reader.Session

/-! What a reader asks of a store, whatever the store answers. It asks for whole sectors of its
partition only, and of an answer it takes nothing but a full sector. What fits the sectors that
the store brought therefore fits those in the cache, and the bytes that a read gives are cut
from them. -/
namespace PartitionTable

structure Exchange.ReadsSector (exchange : Exchange) (reader : Reader σ) (sector : Nat) : Prop where
  nonnegative : 0 ≤ reader.sectorStart sector
  call : exchange.call = .read reader.bytesPerSector.toNat (reader.sectorStart sector).toNat

/-- A sector that was reported in full fits the place that it was read from. -/
def Exchange.Brings (exchange : Exchange) (reader : Reader σ) (fits : Int → List UInt8 → Prop) : Prop :=
  ∀ sector reading, exchange.ReadsSector reader sector → exchange.answer = .ok (.reading reading) →
    reading.count = reader.bytesPerSector.toNat →
    fits (reader.sectorStart sector) (reading.buffer reader.bytesPerSector.toNat)

namespace Reader

/-- From one state to an outcome, only some sectors were asked for. If the cache held what fits
and so did the store bring it, then the cache goes on holding it, and a success is good. -/
def Draws (reader : Reader σ) (fits : Int → List UInt8 → Prop) (wanted : Nat → Prop) (good : α → Prop)
    (state : Cache × World σ) (outcome : Except Fault α × Cache × World σ) : Prop :=
  ∃ trace, Served reader.store state.2 trace outcome.2.2 ∧
    (∀ exchange ∈ trace, ∃ sector, wanted sector ∧ exchange.ReadsSector reader sector) ∧
    (state.1.Holds fits → (∀ exchange ∈ trace, exchange.Brings reader fits) →
      outcome.2.1.Holds fits ∧ ∀ a, outcome.1 = .ok a → good a)

/-- A number of sectors one after the other, each as it fits its place. -/
def Consists (reader : Reader σ) (fits : Int → List UInt8 → Prop) (sector : Nat) : Nat → List UInt8 → Prop
  | 0, bytes => bytes = []
  | count + 1, bytes => ∃ first rest, fits (reader.sectorStart sector) first ∧
      reader.Consists fits (sector + 1) count rest ∧ bytes = first ++ rest

variable {reader : Reader σ} {fits : Int → List UInt8 → Prop}

theorem load_traced (reader : Reader σ) (fits : Int → List UInt8 → Prop) (sector : Nat) :
    (reader.load sector).Traced reader.store fun trace result =>
    (∀ exchange ∈ trace, exchange.ReadsSector reader sector) ∧
    ((∀ exchange ∈ trace, exchange.Brings reader fits) →
      ∀ bytes, result = .ok bytes → fits (reader.sectorStart sector) bytes) := by
  intro world
  simp only [load, Act.run_bind, run_isCancelled]
  by_cases cancelled : world.signals.raised reader.token = true
  · simp only [cancelled, ↓reduceIte, Act.run_fail]
    exact ⟨[], .rest, nofun, nofun⟩
  simp only [cancelled, Bool.false_eq_true, ↓reduceIte]
  by_cases negative : reader.sectorStart sector < 0
  · simp only [negative, ↓reduceIte, Act.run_fail]
    exact ⟨[], .rest, nofun, nofun⟩
  simp only [negative, ↓reduceIte, Act.run_bind, run_note, run_ask]
  let noted := world.note (.readingSector (reader.sectorStart sector).toNat reader.bytesPerSector.toNat)
  let call : Call := .read reader.bytesPerSector.toNat (reader.sectorStart sector).toNat
  let exchange := reader.store.exchange call noted.stores
  have put : Served reader.store world [exchange] (noted.absorb (reader.store.reply call noted.stores)) :=
    .note (.call .rest)
  have reads : exchange.ReadsSector reader sector := ⟨by omega, rfl⟩
  rcases answer : (reader.store.read reader.bytesPerSector.toNat (reader.sectorStart sector).toNat noted.stores).result
    with fault | reading
  · exact ⟨[exchange], put, by simpa using reads, nofun⟩
  simp only
  by_cases full : reading.count = reader.bytesPerSector.toNat
  · simp only [full, ↓reduceIte, Act.run_pure]
    refine ⟨[exchange], put, by simpa using reads, fun brings bytes same => ?_⟩
    cases same
    have answered : exchange.answer = .ok (.reading reading) := congrArg (Except.map Answer.reading) answer
    exact brings exchange (List.mem_singleton_self _) sector reading reads answered full
  · simp only [full, ↓reduceIte, run_refuse]
    exact ⟨[exchange], put.noted, by simpa using reads, nofun⟩

theorem fetch_draws (reader : Reader σ) (fits : Int → List UInt8 → Prop) (sector : Nat) (state : Cache × World σ) :
    reader.Draws fits (· = sector) (fits (reader.sectorStart sector)) state ((reader.fetch sector).run state) := by
  obtain ⟨cache, world⟩ := state
  rw [fetch]
  rcases hit : cache.find? (reader.sectorStart sector) with _ | bytes
  · let noted := world.note (.cacheMiss (reader.sectorStart sector))
    obtain ⟨trace, served, reads, brought⟩ := reader.load_traced fits sector noted
    have wanted : ∀ exchange ∈ trace, ∃ place, place = sector ∧ exchange.ReadsSector reader place :=
      fun exchange member => ⟨sector, rfl, reads exchange member⟩
    rcases run : (reader.load sector).run noted with ⟨fault | bytes, later⟩
    all_goals rw [run] at served brought
    · rw [Cache.run_failed hit run]
      exact ⟨trace, .note served, wanted, fun holds _ => ⟨holds, nofun⟩⟩
    · rw [Cache.run_loaded hit run]
      have evicted : Served reader.store world trace (later.evicted cache.oldest?) := by
        cases cache.oldest? with
        | none => exact .note served
        | some key => exact .note served.noted
      refine ⟨trace, evicted, wanted, fun holds brings => ?_⟩
      have given := brought brings bytes rfl
      exact ⟨holds.evict.insert given, fun _ same => Except.ok.inj same ▸ given⟩
  · rw [Cache.run_hit hit]
    refine ⟨[], .rest, nofun, fun holds _ => ?_⟩
    have given := holds.found hit
    exact ⟨holds.touch given, fun _ same => Except.ok.inj same ▸ given⟩

theorem Draws.still {wanted : Nat → Prop} {good : α → Prop} (state : Cache × World σ) {result : Except Fault α}
    (holds : ∀ a, result = .ok a → good a) : reader.Draws fits wanted good state (result, state) :=
  ⟨[], .rest, nofun, fun kept _ => ⟨kept, holds⟩⟩

theorem Draws.widen {wanted wider : Nat → Prop} {good : α → Prop}
    (draws : reader.Draws fits wanted good state outcome) (more : ∀ sector, wanted sector → wider sector) :
    reader.Draws fits wider good state outcome := by
  obtain ⟨trace, served, reads, holds⟩ := draws
  refine ⟨trace, served, fun exchange member => ?_, holds⟩
  obtain ⟨sector, wanted, read⟩ := reads exchange member
  exact ⟨sector, more sector wanted, read⟩

theorem Draws.returned {wanted : Nat → Prop} {early : α → Prop} {good : β → Prop} {a : α} {b : β}
    (draws : reader.Draws fits wanted early state (.ok a, later)) (formed : early a → good b) :
    reader.Draws fits wanted good state (.ok b, later) := by
  obtain ⟨trace, served, reads, holds⟩ := draws
  refine ⟨trace, served, reads, fun kept brings => ?_⟩
  obtain ⟨last, success⟩ := holds kept brings
  exact ⟨last, fun _ same => Except.ok.inj same ▸ formed (success a rfl)⟩

theorem Draws.next {wanted : Nat → Prop} {early : α → Prop} {late good : β → Prop} {a : α}
    (first : reader.Draws fits wanted early state (.ok a, middle))
    (rest : reader.Draws fits wanted late middle outcome)
    (joined : ∀ b, early a → late b → good b) : reader.Draws fits wanted good state outcome := by
  obtain ⟨before, served, reads, holds⟩ := first
  obtain ⟨after, more, others, ends⟩ := rest
  refine ⟨before ++ after, served.append more, List.forall_mem_append.mpr ⟨reads, others⟩, fun kept brings => ?_⟩
  obtain ⟨early, late⟩ := List.forall_mem_append.mp brings
  obtain ⟨between, met⟩ := holds kept early
  obtain ⟨last, success⟩ := ends between late
  exact ⟨last, fun b same => joined b (met a rfl) (success b same)⟩

theorem Draws.failed {wanted : Nat → Prop} {early : α → Prop} {good : β → Prop}
    (first : reader.Draws fits wanted early state (.error fault, later)) :
    reader.Draws fits wanted good state (.error fault, later) := by
  obtain ⟨trace, served, reads, holds⟩ := first
  exact ⟨trace, served, reads, fun kept brings => ⟨(holds kept brings).1, nofun⟩⟩

theorem gather_draws (reader : Reader σ) (fits : Int → List UInt8 → Prop) (sector count : Nat)
    (pieces : List (List UInt8)) (state : Cache × World σ) :
    reader.Draws fits (fun place => sector ≤ place ∧ place < sector + count)
      (fun bytes => ∃ more, reader.Consists fits sector count more ∧ bytes = pieces.reverse.flatten ++ more)
      state (reader.gather sector count pieces state) := by
  induction count generalizing sector pieces state with
  | zero =>
    refine .still state fun bytes same => ⟨[], rfl, ?_⟩
    rw [List.append_nil]
    exact (Except.ok.inj same).symm
  | succ count ih =>
    have first : reader.Draws fits (fun place => sector ≤ place ∧ place < sector + (count + 1))
        (fits (reader.sectorStart sector)) state ((reader.fetch sector).run state) :=
      (reader.fetch_draws fits sector state).widen (by omega)
    simp only [gather]
    rcases run : (reader.fetch sector).run state with ⟨fault | piece, middle⟩
    all_goals rw [run] at first
    · exact first.failed
    · refine first.next ((ih (sector + 1) (piece :: pieces) middle).widen (by omega)) ?_
      rintro bytes fit ⟨more, consists, rfl⟩
      exact ⟨piece ++ more, ⟨piece, more, fit, consists, rfl⟩, by simp⟩

def Cuts (reader : Reader σ) (fits : Int → List UInt8 → Prop) (offset count : Nat) (bytes : List UInt8) : Prop :=
  if count = 0 then bytes = []
  else ∃ whole, reader.Consists fits (reader.sectorOf offset) (reader.sectorsTouched offset count) whole ∧
    bytes = Bytes.slice whole (offset % reader.bytesPerSector.toNat) count

/-- What any store brings, whatever it reports: a buffer has the length that it was made with. -/
def Whole (reader : Reader σ) (_ : Int) (bytes : List UInt8) : Prop := bytes.length = reader.bytesPerSector.toNat

theorem brings_whole (exchange : Exchange) : exchange.Brings reader reader.Whole :=
  fun _ reading _ _ _ => reading.length_buffer _

theorem consists_whole (consists : reader.Consists reader.Whole sector count bytes) :
    bytes.length = count * reader.bytesPerSector.toNat := by
  induction count generalizing sector bytes with
  | zero =>
    obtain rfl : bytes = [] := consists
    rw [Nat.zero_mul, List.length_nil]
  | succ count ih =>
    obtain ⟨first, rest, whole, consists, rfl⟩ := consists
    rw [List.length_append, ih consists, Nat.add_mul, Nat.one_mul, Nat.add_comm]
    exact congrArg (_ + ·) whole

theorem cuts_whole (positive : 0 < reader.bytesPerSector.toNat) (cuts : reader.Cuts reader.Whole offset count bytes) :
    bytes.length = count := by
  rw [Cuts] at cuts
  rcases Nat.eq_zero_or_pos count with none | some
  · rw [if_pos none] at cuts
    rw [cuts, none, List.length_nil]
  · rw [if_neg (Nat.ne_of_gt some)] at cuts
    obtain ⟨whole, consists, rfl⟩ := cuts
    refine Bytes.length_slice ?_
    rw [consists_whole consists]
    exact touched_covers reader offset positive some

/-- The sectors that lie in the partition, if it ends with a sector. -/
def Within (reader : Reader σ) (sector : Nat) : Prop := sector * reader.bytesPerSector.toNat < reader.size

/-- The last sector that is touched begins before the end of the range, and so of the partition. -/
theorem touched_within (some : reader.covered offset length ≠ 0) (sector : Nat)
    (touched : reader.sectorOf offset ≤ sector ∧
      sector < reader.sectorOf offset + reader.sectorsTouched offset (reader.covered offset length)) :
    reader.Within sector := by
  have last : sector ≤ (offset + reader.covered offset length - 1) / reader.bytesPerSector.toNat := by
    rw [sectorsTouched, sectorOf, sectorOf] at touched
    omega
  have before := Nat.le_trans (Nat.mul_le_mul_right reader.bytesPerSector.toNat last) (Nat.div_mul_le_self _ _)
  rw [covered] at before some
  rw [Within]
  omega

theorem bytesAt_draws (reader : Reader σ) (fits : Int → List UInt8 → Prop) (offset length : Nat)
    (state : Cache × World σ) :
    reader.Draws fits reader.Within (reader.Cuts fits offset (reader.covered offset length)) state
      ((reader.bytesAt offset length).run state) := by
  by_cases none : reader.covered offset length = 0
  · simp only [bytesAt, none, ↓reduceIte, Act.run_pure]
    refine .still state fun bytes same => ?_
    rw [Cuts, if_pos rfl]
    exact (Except.ok.inj same).symm
  simp only [bytesAt, none, ↓reduceIte, Act.run_bind]
  have drawn := (reader.gather_draws fits (reader.sectorOf offset)
    (reader.sectorsTouched offset (reader.covered offset length)) [] state).widen (touched_within none)
  rcases run : reader.gather (reader.sectorOf offset) (reader.sectorsTouched offset (reader.covered offset length)) []
    state with ⟨fault | bytes, later⟩
  all_goals rw [run] at drawn
  · exact drawn.failed
  · refine drawn.returned ?_
    rintro ⟨_, consists, rfl⟩
    rw [Cuts, if_neg none]
    exact ⟨_, consists, rfl⟩

def settled (reader : Reader σ) (offset : Nat) (result : Except Fault (List UInt8)) (cache : Cache) : Reader σ :=
  { reader with
    cache
    cursor := match result with
      | .ok bytes => offset + bytes.length
      | .error _ => reader.cursor }

/-- All that a read can do to a reader and to the world. -/
theorem readFrom_draws (reader : Reader σ) (fits : Int → List UInt8 → Prop) (offset length : Nat) (world : World σ) :
    ∃ result cache later,
      (readFrom offset length).run (reader, world) = (result, reader.settled offset result cache, later) ∧
      (∀ bytes, result = .ok bytes → length ≤ Offset.maximum) ∧
      reader.Draws fits reader.Within (reader.Cuts fits offset (reader.covered offset length)) (reader.cache, world)
        (result, cache, later) := by
  simp only [readFrom]
  by_cases long : Offset.maximum < length
  · simp only [long, ↓reduceIte]
    refine ⟨.error .valueExceedsMaximum, reader.cache, world, rfl, ?_, .still _ ?_⟩
    all_goals
      intro _ given
      cases given
  simp only [long, ↓reduceIte]
  have drawn := reader.bytesAt_draws fits offset length (reader.cache, world)
  rcases run : (reader.bytesAt offset length).run (reader.cache, world) with ⟨fault | bytes, cache, later⟩
  all_goals
    rw [run] at drawn
    exact ⟨_, cache, later, rfl, fun _ _ => Nat.le_of_not_lt long, drawn⟩

end Reader

namespace Request

def range? (cursor : Nat) : Request → Option (Nat × Nat)
  | read length => some (cursor, length)
  | readAt offset length => if offset < 0 then none else some (offset.toNat, length)
  | seek _ _ => none

theorem range?_some {request : Request} (range : request.range? cursor = some (offset, length)) :
    (request = read length ∧ offset = cursor) ∨ request = readAt offset length := by
  cases request with
  | read count =>
    cases range
    exact .inl ⟨rfl, rfl⟩
  | readAt place count =>
    rw [range?] at range
    by_cases negative : place < 0
    · rw [if_pos negative] at range
      cases range
    · rw [if_neg negative] at range
      cases range
      rw [Int.toNat_of_nonneg (Int.not_lt.mp negative)]
      exact .inr rfl
  | seek => cases range

theorem range?_none {request : Request} (range : request.range? cursor = none) :
    (∃ offset length, request = readAt offset length ∧ offset < 0) ∨
      ∃ offset origin, request = seek offset origin := by
  cases request with
  | read => cases range
  | readAt place count =>
    refine .inl ⟨place, count, rfl, Int.not_le.mp fun nonnegative => ?_⟩
    rw [range?, if_neg (Int.not_lt.mpr nonnegative)] at range
    cases range
  | seek offset origin => exact .inr ⟨offset, origin, rfl⟩

end Request

def Response.failed : Response → Bool
  | .bytes (.error _) | .position (.error _) => true
  | .bytes (.ok _) | .position (.ok _) => false

namespace Plain

theorem respond_reading (plain : Plain) (range : request.range? cursor = some (offset, length)) :
    plain.respond cursor request = plain.readFrom cursor offset length := by
  rcases Request.range?_some range with ⟨rfl, rfl⟩ | rfl
  · rfl
  · simp only [respond, Int.not_ofNat_neg, ↓reduceIte, Int.toNat_natCast]

/-- A request that does not read fails, or it moves the cursor to a position. -/
theorem respond_resting (plain : Plain) (range : request.range? cursor = none) :
    ((plain.respond cursor request).1.failed = true ∧ (plain.respond cursor request).2 = cursor) ∨
      (plain.respond cursor request).1.failed = false ∧ (plain.respond cursor request).2 ≤ Offset.maximum := by
  rcases Request.range?_none range with ⟨offset, length, rfl, negative⟩ | ⟨offset, origin, rfl⟩
  · rw [respond, if_pos negative]
    exact .inl ⟨rfl, rfl⟩
  · rw [respond]
    by_cases inside : 0 ≤ (plain.base cursor origin : Int) + offset ∧
        (plain.base cursor origin : Int) + offset ≤ Offset.maximum
    · rw [if_pos inside]
      exact .inr ⟨rfl, Int.toNat_le.mpr inside.2⟩
    · rw [if_neg inside]
      exact .inl ⟨rfl, rfl⟩

end Plain

/-- What happens to a reader: requests, and between them anything that others do to the world. -/
inductive Event (σ : Type) where
  | request (request : Request)
  | meanwhile (change : World σ → World σ)

namespace Reader

theorem respond_reading (range : request.range? reader.cursor = some (offset, length)) (world : World σ) :
    respond request (reader, world) =
      (.bytes ((readFrom offset length).run (reader, world)).1, ((readFrom offset length).run (reader, world)).2) := by
  rcases Request.range?_some range with ⟨rfl, rfl⟩ | rfl
  · rfl
  · simp only [respond, readAt, Int.not_ofNat_neg, ↓reduceIte, Int.toNat_natCast]

theorem respond_resting (range : request.range? reader.cursor = none) (image : Image) (world : World σ) :
    respond request (reader, world) =
      (((reader.plain image).respond reader.cursor request).1,
        { reader with cursor := ((reader.plain image).respond reader.cursor request).2 }, world) := by
  rcases Request.range?_none range with ⟨offset, length, rfl, negative⟩ | ⟨offset, origin, rfl⟩
  · simp only [respond, Plain.respond, readAt, negative, ↓reduceIte, Act.run_fail]
  · simp only [respond, Plain.respond, run_seek reader image]
    split <;> rfl

theorem ofExtent_positive {store : Store σ} {extent : Extent} {token : Token} {bytesPerSector : UInt32}
    (made : ofExtent extent store token bytesPerSector capacity = .ok reader) : 0 < bytesPerSector.toNat := by
  refine Nat.pos_of_ne_zero fun none => (ofExtent_ok made).1 ?_
  exact UInt32.toNat_inj.mp none

def step : Event σ → Reader σ × World σ → Reader σ × World σ
  | .request request, state => (respond request state).2
  | .meanwhile change, (reader, world) => (reader, change world)

def after : List (Event σ) → Reader σ × World σ → Reader σ × World σ
  | [], state => state
  | event :: rest, state => after rest (step event state)

end Reader
end PartitionTable
